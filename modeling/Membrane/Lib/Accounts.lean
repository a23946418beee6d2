import Membrane.Lib.KeyMap

/-!
# Balances

The balances of a token's holders. Crediting an account raises the supply by the
amount, debiting one lowers it, and two holders never have more than the supply
between them.
-/

namespace Membrane

universe u

/-- The balances of the holders of a token. -/
abbrev Accounts (κ : Type u) := KeyMap κ Nat

namespace Accounts

variable {κ : Type u} [DecidableEq κ]

/-- What an account holds. -/
def balance (accounts : Accounts κ) (holder : κ) : Nat := KeyMap.measureAt id accounts holder

/-- What all accounts hold. -/
def supply (accounts : Accounts κ) : Nat := KeyMap.total id accounts

def credit (accounts : Accounts κ) (holder : κ) (amount : Nat) : Accounts κ :=
  accounts.insert holder (balance accounts holder + amount)

def debit (accounts : Accounts κ) (holder : κ) (amount : Nat) : Option (Accounts κ) :=
  if amount ≤ balance accounts holder then
    some (accounts.insert holder (balance accounts holder - amount))
  else none

def transfer (accounts : Accounts κ) (sender receiver : κ) (amount : Nat) :
    Option (Accounts κ) :=
  (debit accounts sender amount).map fun rest => credit rest receiver amount

variable {accounts accounts' : Accounts κ} {holder : κ} {amount : Nat}

theorem supply_credit : supply (credit accounts holder amount) = supply accounts + amount := by
  have hmoved := KeyMap.total_insert id accounts holder (balance accounts holder + amount)
  simp only [id_eq] at hmoved
  unfold supply credit balance at *
  omega

theorem balance_credit {other : κ} :
    balance (credit accounts holder amount) other =
      balance accounts other + if other = holder then amount else 0 := by
  unfold balance credit
  rw [KeyMap.measureAt_insert]
  split
  case isTrue same =>
    rw [same]
    rfl
  case isFalse => rfl

theorem debit_spec (done : debit accounts holder amount = some accounts') :
    amount ≤ balance accounts holder ∧ supply accounts' + amount = supply accounts := by
  unfold debit at done
  split at done
  case isTrue hamount =>
    obtain rfl := Option.some.inj done
    have hmoved := KeyMap.total_insert id accounts holder (balance accounts holder - amount)
    simp only [id_eq] at hmoved
    refine ⟨hamount, ?_⟩
    unfold supply balance at *
    omega
  case isFalse => cases done

theorem balance_debit (done : debit accounts holder amount = some accounts') :
    balance accounts' holder + amount = balance accounts holder := by
  unfold debit at done
  split at done
  case isTrue hamount =>
    obtain rfl := Option.some.inj done
    have hleft :=
      KeyMap.measureAt_insert id accounts holder (balance accounts holder - amount) holder
    rw [if_pos rfl] at hleft
    unfold balance at *
    rw [hleft]
    exact Nat.sub_add_cancel hamount
  case isFalse => cases done

theorem balance_of_debit (done : debit accounts holder amount = some accounts') {other : κ}
    (ne : other ≠ holder) : balance accounts' other = balance accounts other := by
  unfold debit at done
  split at done
  case isTrue =>
    obtain rfl := Option.some.inj done
    simp only [balance, KeyMap.measureAt, AList.lookup_insert_ne ne]
  case isFalse => cases done

theorem supply_transfer {sender receiver : κ}
    (done : transfer accounts sender receiver amount = some accounts') :
    supply accounts' = supply accounts := by
  obtain ⟨rest, hdebit, rfl⟩ := Option.map_eq_some_iff.mp done
  rw [supply_credit]
  exact (debit_spec hdebit).2

end Accounts

end Membrane
