import Membrane.LiqQueue.Bid

/-!
# Querying what is liquidatible

`query_liquidatible` of `query.rs`, from which the positions contract sizes what it sends
to the queue.
-/

namespace Membrane.LiqQueue

/-- `LiquidatibleResponse`; its texts are those of two integers. -/
structure LiquidatibleResponse where
  leftoverCollateral : Nat
  totalDebtRepaid : Nat
  deriving DecidableEq, Repr

end Membrane.LiqQueue
