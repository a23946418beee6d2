import Membrane.Staking.Rewards

/-!
# Delegations

The handlers of `contracts/staking/src/contract.rs` that move delegations. A delegation is
stored twice, with the user who made it and with the delegate, and each handler edits both
sides.
-/

namespace Membrane.Staking

def leastDelegation : Nat := 1000000

/-! ## Undelegating on withdrawal -/

/-- What the loop of `unstake` over the delegations of the user carries: what is still to be
    undelegated, the indices to remove, and whether it has stopped. -/
structure Undelegating where
  info : DelegationInfo
  undelegateAmount : Nat
  removeIndices : List Nat
  stopped : Bool

/-- The delegation of a user removed from the delegate's side. -/
def removeDelegated (user delegate : Addr) (s : State) : Outcome StdError State := do
  let info ← s.loadDelegations delegate
  let delegated ← (match info.delegated.findIdx? fun listed => listed.delegate = user with
    | some i => Outcome.removeIndex info.delegated i
    | none => pure info.delegated)
  pure (s.saveDelegations delegate { info with delegated := delegated })

/-- The delegation of a user lowered on the delegate's side, to zero where it is less. -/
def lowerDelegated (user delegate : Addr) (amount : Nat) (s : State) : Outcome StdError State := do
  let info ← s.loadDelegations delegate
  let delegated ← (match info.delegated.findIdx? fun listed => listed.delegate = user with
    | some i => do
        let listed ← Outcome.index info.delegated i
        Outcome.setIndex info.delegated i { listed with amount := listed.amount - amount }
    | none => pure info.delegated)
  pure (s.saveDelegations delegate { info with delegated := delegated })

/-- One delegation in the loop of `unstake`. -/
def undelegateOne (user : Addr) (acc : Undelegating × State) (entry : Delegation × Nat) :
    Outcome StdError (Undelegating × State) := do
  let (u, s) := acc
  let (delegation, i) := entry
  if u.stopped then pure (u, s)
  else if delegation.amount ≤ u.undelegateAmount ∧ u.undelegateAmount ≠ 0 then do
    let s ← removeDelegated user delegation.delegate s
    pure ({ u with
      undelegateAmount := u.undelegateAmount - delegation.amount
      removeIndices := u.removeIndices ++ [i] }, s)
  else do
    let listed ← Outcome.index u.info.delegatedTo i
    if u.undelegateAmount < listed.amount ∧ u.undelegateAmount ≠ 0 then do
      let delegatedTo ← Outcome.setIndex u.info.delegatedTo i
        { listed with amount := listed.amount - u.undelegateAmount }
      let s ← lowerDelegated user delegation.delegate u.undelegateAmount s
      pure ({ u with info := { u.info with delegatedTo := delegatedTo }, stopped := true }, s)
    else pure (u, s)

/-- `unstake`, of the delegations: what is withdrawn beyond the stake that is not delegated is
    undelegated. -/
def undelegateExcess (user : Addr) (totalStake withdrawableAmount : Nat) (s : State) :
    Outcome StdError State :=
  match s.delegations.lookup user with
  | none => pure s
  | some info => do
      let totalDelegated ← totalDelegations info.delegatedTo
      let undelegatedStake := totalStake - totalDelegated
      if undelegatedStake < withdrawableAmount then do
        let (u, s) ← info.delegatedTo.zipIdx.foldlM (undelegateOne user)
          (⟨info, withdrawableAmount - undelegatedStake, [], false⟩, s)
        -- the indices are those before any of the removals
        let delegatedTo ← u.removeIndices.foldlM Outcome.removeIndex u.info.delegatedTo
        pure (s.saveDelegations user { u.info with delegatedTo := delegatedTo })
      else pure s

/-! ## Delegating -/

/-- A delegation raised by an amount, or listed at the end. -/
def raiseDelegation (delegation : Delegation) (delegations : List Delegation) :
    Outcome StdError (List Delegation) :=
  match delegations.findIdx? fun listed => listed.delegate = delegation.delegate with
  | some i => do
      let listed ← Outcome.index delegations i
      let amount ← Uint128.add listed.amount delegation.amount
      Outcome.setIndex delegations i { listed with amount := amount }
  | none => pure (delegations ++ [delegation])

/-- A delegation lowered by an amount, or removed where less than one MBRN would be left. -/
def cutDelegation (user : Addr) (amount : Nat) (absent : String) (delegations : List Delegation) :
    Result (List Delegation) :=
  match delegations.findIdx? fun listed => listed.delegate = user with
  | some i => do
      let listed ← Outcome.index delegations i
      match Uint128.checkedSub listed.amount amount with
      | some left =>
        if left < leastDelegation then Outcome.removeIndex delegations i
        else Outcome.setIndex delegations i { listed with amount := left }
      | none => Outcome.removeIndex delegations i
  | none => Outcome.fail (.customError absent)

/-- `DELEGATIONS.save`, or `remove` where nothing is delegated either way. -/
def saveOrRemove (user : Addr) (info : DelegationInfo) (s : State) : State :=
  if info.delegated = [] ∧ info.delegatedTo = [] then
    { s with delegations := s.delegations.erase user }
  else s.saveDelegations user info

/-- The arguments of `ExecuteMsg::UpdateDelegations`. -/
structure DelegationUpdate where
  governatorAddr : Option String
  mbrnAmount : Option Nat
  delegate : Option Bool
  fluid : Option Bool
  commission : Option Decimal
  votingPowerDelegation : Option Bool
  deriving DecidableEq, Repr

def DelegationUpdate.delegation (update : DelegationUpdate) (blockTime : Nat) (user : Addr)
    (amount : Nat) : Delegation :=
  ⟨user, amount, update.fluid.getD false, update.votingPowerDelegation.getD true, blockTime, none⟩

/-- The delegating branch of `update_delegations`. -/
def delegateTo (env : Env) (user governator : Addr) (update : DelegationUpdate)
    (userInfo : DelegationInfo) (totalDelegatible : Nat) (s : State) : Result State := do
  let mbrnAmount := min (update.mbrnAmount.getD totalDelegatible) totalDelegatible
  Outcome.guardErr (totalDelegatible < mbrnAmount)
    (.customError "MBRN amount exceeds delegatible amount")
  Outcome.guardErr (mbrnAmount < leastDelegation)
    (.customError "MBRN amount must be greater than 1")
  Outcome.guardErr (totalDelegatible = 0) (.customError "No delegatible amount")
  let delegatesInfo := s.delegationsOr governator Decimal.zero
  let delegated ← liftStd
    (raiseDelegation (update.delegation env.blockTime user mbrnAmount) delegatesInfo.delegated)
  let s := s.saveDelegations governator { delegatesInfo with delegated := delegated }
  let delegatedTo ← liftStd
    (raiseDelegation (update.delegation env.blockTime governator mbrnAmount) userInfo.delegatedTo)
  pure (s.saveDelegations user { userInfo with delegatedTo := delegatedTo })

/-- The undelegating branch of `update_delegations`. -/
def undelegateFrom (user governator : Addr) (update : DelegationUpdate)
    (userInfo : DelegationInfo) (totalDelegated : Nat) (s : State) : Result State := do
  let mbrnAmount := min (update.mbrnAmount.getD totalDelegated) totalDelegated
  Outcome.guardErr (totalDelegated < mbrnAmount)
    (.customError "MBRN amount exceeds delegated amount")
  Outcome.guardErr (mbrnAmount < leastDelegation)
    (.customError "MBRN amount must be greater than 1")
  Outcome.guardErr (totalDelegated = 0) (.customError "No delegated amount")
  let delegatesInfo ← liftStd (s.loadDelegations governator)
  let delegated ← cutDelegation user mbrnAmount "Delegator not found in delegate's delegated"
    delegatesInfo.delegated
  let s := saveOrRemove governator { delegatesInfo with delegated := delegated } s
  let delegatedTo ← cutDelegation governator mbrnAmount
    "Delegate not found in staker's delegated_to"
    userInfo.delegatedTo
  pure (saveOrRemove user { userInfo with delegatedTo := delegatedTo } s)

/-- The commission of a user set, where the user has an entry. -/
def setCommission (user : Addr) (commission : Decimal) (s : State) : State :=
  match s.delegations.lookup user with
  | some info => s.saveDelegations user { info with commission := commission }
  | none => s

/-- The flags of the delegations to or from a user set. -/
def setFlags (user : Addr) (update : DelegationUpdate) (delegations : List Delegation) :
    List Delegation :=
  delegations.map fun delegation =>
    if delegation.delegate = user then
      { delegation with
        fluidity := update.fluid.getD delegation.fluidity
        votingPowerDelegation :=
          update.votingPowerDelegation.getD delegation.votingPowerDelegation }
    else delegation

/-- The last step of `update_delegations`: the flags on both sides. -/
def updateFlags (user governator : Addr) (update : DelegationUpdate) (s : State) : State :=
  if update.fluid.isSome ∨ update.votingPowerDelegation.isSome then
    let s := match s.delegations.lookup user with
      | some info => s.saveDelegations user
          { info with delegatedTo := setFlags governator update info.delegatedTo }
      | none => s
    match s.delegations.lookup governator with
    | some info => s.saveDelegations governator
        { info with delegated := setFlags user update info.delegated }
    | none => s
  else s

/-- `update_delegations` with a governator. -/
def updateDelegationsTo (deps : Deps) (env : Env) (info : MessageInfo) (update : DelegationUpdate)
    (governatorAddr : String) (s : State) : Result (State × List (CosmosMsg OutMsg)) := do
  let governator ← liftStd (addrValidate deps.addrValid governatorAddr)
  Outcome.guardErr (governator = info.sender) (.customError "Delegate cannot be the user")
  let stakerDeposits ← liftStd (s.loadStaked info.sender)
  let totalStakerDeposits ← liftStd (totalStake stakerDeposits)
  let userInfo := s.delegationsOr info.sender (update.commission.getD Decimal.zero)
  let totalDelegatedAmount ← liftStd (totalDelegations userInfo.delegatedTo)
  let totalDelegatibleAmount ← subUint totalStakerDeposits totalDelegatedAmount
  let (s, claimMsgs) ← (match update.delegate with
    | some delegate => do
        let (s', claims, interest) ← liftStd (getUserClaimables env info.sender s)
        let (s', msgs) ← liftStd
          (createRewardsMsgs deps env s.config claims interest info.sender [] s')
        let s' ← (if delegate then
            delegateTo env info.sender governator update userInfo totalDelegatibleAmount s'
          else undelegateFrom info.sender governator update userInfo totalDelegatedAmount s')
        pure (s', msgs)
    | none => pure (s, []))
  let s := match update.commission with
    | some commission => setCommission info.sender commission s
    | none => s
  pure (updateFlags info.sender governator update s, claimMsgs)

def executeUpdateDelegations (deps : Deps) (env : Env) (info : MessageInfo)
    (update : DelegationUpdate) (s : State) : Result (State × List (CosmosMsg OutMsg)) := do
  let update := { update with
    commission := update.commission.map fun commission =>
      Decimal.min commission s.config.maxCommissionRate }
  match update.commission, update.governatorAddr with
  | some commission, none =>
    if update.mbrnAmount = none ∧ update.delegate = none ∧ update.fluid = none then
      pure (setCommission info.sender commission s, [])
    else pure (s, [])
  | _, some governatorAddr => updateDelegationsTo deps env info update governatorAddr s
  -- the attribute of the commission unwraps it
  | none, none => Outcome.abort

/-! ## Delegating what was delegated -/

/-- What the loop of `delegate_fluid_delegations` carries. -/
structure FluidDelegating where
  fluidDelegations : List Delegation
  mbrnAmount : Nat
  stopped : Bool

/-- The part of a fluid delegation that is passed on, with the list and the amount left. -/
def takeFluid (fluidDelegations : List Delegation) (mbrnAmount i : Nat) (delegation : Delegation) :
    Outcome StdError (Nat × List Delegation × Nat) :=
  if delegation.amount ≤ mbrnAmount then do
    let fluidDelegations ← Outcome.removeIndex fluidDelegations i
    pure (delegation.amount, fluidDelegations, mbrnAmount - delegation.amount)
  else do
    let listed ← Outcome.index fluidDelegations i
    let left ← subUint listed.amount mbrnAmount
    let fluidDelegations ← Outcome.setIndex fluidDelegations i { listed with amount := left }
    if left < leastDelegation then do
      let delegationAmount ← Uint128.add mbrnAmount left
      let fluidDelegations ← Outcome.removeIndex fluidDelegations i
      pure (delegationAmount, fluidDelegations, 0)
    else pure (mbrnAmount, fluidDelegations, 0)

/-- The subtraction from the initial delegator's delegation to the executing delegate. -/
def lowerDelegation (user : Addr) (amount : Nat) (delegations : List Delegation) :
    Result (List Delegation) :=
  match delegations.findIdx? fun listed => listed.delegate = user with
  | some i => do
      let listed ← Outcome.index delegations i
      let left ← subUint listed.amount amount
      Outcome.setIndex delegations i { listed with amount := left }
  | none => Outcome.fail (.customError "Delegate is not a delegate of the initial delegator")

/-- One delegation in the loop of `delegate_fluid_delegations`. -/
def delegateFluidOne (env : Env) (user governator : Addr) (acc : FluidDelegating × State)
    (entry : Delegation × Nat) : Result (FluidDelegating × State) := do
  let (f, s) := acc
  let (delegation, i) := entry
  if f.stopped then pure (f, s)
  else do
    let (amount, fluidDelegations, mbrnAmount) ← liftStd
      (takeFluid f.fluidDelegations f.mbrnAmount i delegation)
    let passedOn (delegate : Addr) : Delegation :=
      ⟨delegate, amount, true, delegation.votingPowerDelegation, env.blockTime, none⟩
    let governatorInfo := s.delegationsOr governator Decimal.zero
    let delegated ← liftStd
      (raiseDelegation (passedOn delegation.delegate) governatorInfo.delegated)
    let s := s.saveDelegations governator { governatorInfo with delegated := delegated }
    let initialInfo ← liftStd (s.loadDelegations delegation.delegate)
    let delegatedTo ← liftStd (raiseDelegation (passedOn governator) initialInfo.delegatedTo)
    let delegatedTo ← lowerDelegation user amount delegatedTo
    let s := s.saveDelegations delegation.delegate { initialInfo with delegatedTo := delegatedTo }
    pure (⟨fluidDelegations, mbrnAmount, decide (mbrnAmount = 0)⟩, s)

def delegateFluidDelegations (deps : Deps) (env : Env) (info : MessageInfo)
    (governatorAddr : String) (mbrnAmount : Option Nat) (s : State) :
    Result (State × List (CosmosMsg OutMsg)) := do
  let governator ← liftStd (addrValidate deps.addrValid governatorAddr)
  Outcome.guardErr (governator = info.sender) (.customError "Delegate cannot be the user")
  let delegateInfo ← liftStd (s.loadDelegations info.sender)
  let (s', claims, interest) ← liftStd (getUserClaimables env info.sender s)
  let (s, msgs) ← liftStd (createRewardsMsgs deps env s.config claims interest info.sender [] s')
  let fluidDelegations := delegateInfo.delegated.filter fun delegation => delegation.fluidity
  let nonFluidDelegations := delegateInfo.delegated.filter fun delegation => !delegation.fluidity
  let totalFluid ← liftStd (totalDelegations fluidDelegations)
  let mbrnAmount := min (mbrnAmount.getD totalFluid) totalFluid
  Outcome.guardErr (totalFluid < mbrnAmount)
    (.customError "MBRN amount exceeds total fluid delegatible amount")
  Outcome.guardErr (mbrnAmount < leastDelegation)
    (.customError "MBRN amount must be greater than 1")
  Outcome.guardErr (totalFluid = 0) (.customError "No fluid delegations to delegate")
  let (f, s) ← fluidDelegations.zipIdx.foldlM (delegateFluidOne env info.sender governator)
    (⟨fluidDelegations, mbrnAmount, false⟩, s)
  pure (s.saveDelegations info.sender
    { delegateInfo with delegated := f.fluidDelegations ++ nonFluidDelegations }, msgs)

end Membrane.Staking
