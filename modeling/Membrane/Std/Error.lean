import Mathlib.Algebra.Order.Ring.Nat
import Mathlib.Data.List.Basic

/-!
# Errors of the contract runtime

The cases of the runtime's own error type that the modelled contracts raise,
with the text each is displayed as, since handlers wrap that text into their
own errors.
-/

namespace Membrane

inductive StdError where
  | genericErr (msg : String)
  | notFound (kind : String)
  | overflow (operation operand1 operand2 : String)
  | divideByZero (operand : String)
  | checkedFromRatio
  deriving DecidableEq, Repr

def StdError.toText : StdError → String
  | .genericErr msg => "Generic error: " ++ msg
  | .notFound kind => kind ++ " not found"
  | .overflow operation operand1 operand2 =>
    "Overflow: Cannot " ++ operation ++ " with " ++ operand1 ++ " and " ++ operand2
  | .divideByZero operand => "Divide by zero: Cannot devide " ++ operand ++ " by zero"
  | .checkedFromRatio => "Generic error: checked from ratio"

end Membrane
