import Membrane.Std.Rational

/-!
# Decimals as text

The text of a `Decimal256` and its parser (`packages/membrane/src/math.rs`). The parser splits
at the dots and leaves the digits to `U256::from_dec_str` of the `uint` crate, which is a
parameter: it reads a text of digits, an empty one as zero, and fails on any other and on a
number past 256 bits. Both operators that join the parts abort on overflow.
-/

namespace Membrane

open Outcome

/-- `a.pow(exp)` on `U256`. -/
def Uint256.pow {ε : Type} (a exp : Nat) : Outcome ε Nat :=
  if a ^ exp < Uint256.limit then .ok (a ^ exp) else Outcome.abort

namespace Decimal256

/-- A decimal as displayed: the whole part, then the fraction padded to 18 digits and without
    the zeros at its end. -/
def toText (a : Decimal256) : String :=
  let whole := a.atomics / fractional
  let fraction := a.atomics % fractional
  if fraction = 0 then toString whole
  else
    let digits := (toString fraction).toList
    let padded := List.replicate (18 - digits.length) '0' ++ digits
    toString whole ++ "." ++ String.ofList (trimZeros padded)

def byteLength (text : List Char) : Nat := (text.map Char.utf8Size).sum

section

variable (fromDecStr : List Char → Option Nat)

/-- The branch of `from_str` for a text without a dot. -/
def fromWhole (whole : List Char) : Outcome StdError Decimal256 := do
  let whole ← Outcome.ofOption (fromDecStr whole) (.genericErr "Error parsing whole")
  pure ⟨← Uint256.mul whole fractional⟩

/-- The branch of `from_str` for a text with one dot. -/
def fromParts (whole digits : List Char) : Outcome StdError Decimal256 := do
  let whole ← Outcome.ofOption (fromDecStr whole) (.genericErr "Error parsing whole")
  let fraction ← Outcome.ofOption (fromDecStr digits) (.genericErr "Error parsing fractional")
  let exp ← Outcome.ofOption
    (if byteLength digits ≤ 18 then some (18 - byteLength digits) else none)
    (.genericErr "Cannot parse more than 18 fractional digits")
  let fractionalFactor ← Uint256.pow 10 exp
  let wholeAsAtomics ← Uint256.mul whole fractional
  pure ⟨← Uint256.add wholeAsAtomics (← Uint256.mul fraction fractionalFactor)⟩

/-- `Decimal256::from_str`. -/
def fromStr (input : String) : Outcome StdError Decimal256 :=
  match input.toList.splitOn '.' with
  | [whole] => fromWhole fromDecStr whole
  | [whole, digits] => fromParts fromDecStr whole digits
  | _ => Outcome.fail (.genericErr "Unexpected number of dots")

/-- `Decimal256::from` of a decimal, through its text. -/
def ofDecimal (val : Decimal) : Outcome StdError Decimal256 :=
  Outcome.orAbort (fromStr fromDecStr val.toText)

end

end Decimal256

end Membrane
