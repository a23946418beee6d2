import Membrane.Std.Error
import Membrane.Std.Uint

/-!
# The contract's view of the chain

Addresses and denominations, the environment and sender of a call, and the
messages a call returns. `μ` is the type of the execute messages that a contract
sends to others, so that each contract has its own.
-/

namespace Membrane

universe u

/-- An account or contract address. -/
abbrev Addr := String

structure Coin where
  denom : String
  amount : Nat
  deriving DecidableEq, Repr

/-- What the chain tells a contract about the block it runs in. -/
structure Env where
  /-- `env.block.time.seconds()`. -/
  blockTime : Nat
  /-- `env.contract.address`. -/
  contractAddress : Addr
  deriving DecidableEq, Repr

/-- The sender of a message and the coins sent with it. The chain rejects a
    message that repeats a denomination or sends a zero amount. -/
structure MessageInfo where
  sender : Addr
  funds : List Coin
  distinct : (funds.map Coin.denom).Nodup
  positive : ∀ coin ∈ funds, 0 < coin.amount

def MessageInfo.noFunds (sender : Addr) : MessageInfo := ⟨sender, [], .nil, by simp⟩

def MessageInfo.oneCoin (sender : Addr) (coin : Coin) (positive : 0 < coin.amount) : MessageInfo :=
  ⟨sender, [coin], by simp, by simpa using positive⟩

/-- A message a contract returns. -/
inductive CosmosMsg (μ : Type u) where
  | bankSend (toAddress : Addr) (amount : List Coin)
  | execute (contract : Addr) (msg : μ) (funds : List Coin)
  deriving DecidableEq, Repr

/-- When the sender of a submessage is called back. -/
inductive ReplyOn where
  | never
  | success
  | error
  | always
  deriving DecidableEq, Repr

/-- A message with the way its outcome is handled. -/
structure SubMsg (μ : Type u) where
  id : Nat
  msg : CosmosMsg μ
  replyOn : ReplyOn
  deriving DecidableEq, Repr

namespace SubMsg

variable {μ : Type u}

/-- A message whose outcome is not handled: its failure aborts the transaction. -/
def new (msg : CosmosMsg μ) : SubMsg μ := ⟨0, msg, .never⟩

def replyOnSuccess (msg : CosmosMsg μ) (id : Nat) : SubMsg μ := ⟨id, msg, .success⟩

def replyOnError (msg : CosmosMsg μ) (id : Nat) : SubMsg μ := ⟨id, msg, .error⟩

end SubMsg

/-- What a call returns: its messages in the order the chain executes them. -/
structure Response (μ : Type u) where
  messages : List (SubMsg μ) := []
  deriving DecidableEq, Repr

namespace Response

variable {μ : Type u}

def addMessages (r : Response μ) (msgs : List (CosmosMsg μ)) : Response μ :=
  ⟨r.messages ++ msgs.map SubMsg.new⟩

def addSubmessages (r : Response μ) (msgs : List (SubMsg μ)) : Response μ :=
  ⟨r.messages ++ msgs⟩

end Response

/-- `api.addr_validate` on a chain that accepts the texts `addrValid` does: the address
    is the text itself. -/
def addrValidate (addrValid : String → Bool) (text : String) : Outcome StdError Addr :=
  if addrValid text then .ok text
  else Outcome.fail (.genericErr "addr_validate errored")

@[simp]
theorem addrValidate_eq_ok {addrValid : String → Bool} {text : String} {addr : Addr} :
    addrValidate addrValid text = .ok addr ↔ addrValid text = true ∧ text = addr := by
  by_cases h : addrValid text <;> simp [addrValidate, h]

end Membrane
