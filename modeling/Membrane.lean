import Membrane.Lib.KeyMap
import Membrane.Lib.Run
import Membrane.Cdp.Contract
import Membrane.Cdp.Proofs.Conservation
import Membrane.Cdp.Proofs.Backing
import Membrane.Cdp.Proofs.Settling
import Membrane.Cdp.Proofs.Alignment
import Membrane.Cdp.Proofs.Limits
import Membrane.Cdp.Proofs.Spending
import Membrane.Cdp.Proofs.Seizure
import Membrane.Cdp.Proofs.Removal
import Membrane.Cdp.Proofs.Safety
import Membrane.Cdp.Proofs.Margins
import Membrane.Cdp.Proofs.Identity
import Membrane.Cdp.Proofs.Freezing
import Membrane.Cdp.Proofs.Interest
import Membrane.Cdp.Proofs.Forcing
import Membrane.Cdp.Proofs.Expunging
import Membrane.Cdp.Proofs.BadDebt
import Membrane.Cdp.Proofs.PriceLists
import Membrane.Cdp.Proofs.Dust
import Membrane.Cdp.Proofs.TargetLTV
import Membrane.Cdp.Proofs.Volatility
import Membrane.Cdp.Proofs.DebtCaps
import Membrane.Cdp.Proofs.Editing
import Membrane.LiqQueue.Proofs.Solvency
import Membrane.LiqQueue.Proofs.Waiting
import Membrane.LiqQueue.Proofs.Structure
import Membrane.LiqQueue.Proofs.Settleable
import Membrane.LiqQueue.Proofs.Sizing
import Membrane.LiqQueue.Proofs.Fairness
import Membrane.Auction.Proofs.FeeBooks
import Membrane.Proxy.Proofs.Supply
import Membrane.MarsVault.Proofs.Assurance
import Membrane.StabilityPool.Proofs.Underflow
import Membrane.Vesting.Proofs.MintCap
import Membrane.Governance.Proofs.Tally
import Membrane.Oracle.Proofs.Batches
import Membrane.Launch.Proofs.Claims
import Membrane.Oracle.Proofs.Normalising
import Membrane.Points.Proofs.Rewards
import Membrane.Proxy.Proofs.Routes
import Membrane.StabilityPool.Proofs.Conserving
import Membrane.StabilityPool.Proofs.Repaying
import Membrane.StableEarn.Proofs.Exits
import Membrane.Vesting.Proofs.Divvying
import Membrane.Vesting.Proofs.FeeShares
import Membrane.Vesting.Proofs.Withdrawals
import Membrane.LiqQueue.Proofs.Products
import Membrane.DiscountVault.Proofs.Withdrawing
import Membrane.LiqQueue.Proofs.Conversions
import Membrane.Std.TextRoundTrip
import Membrane.LiqQueue.Proofs.Splitting
import Membrane.StableEarn.Proofs.Sizing
import Membrane.Staking.Proofs.PaidOnce
import Membrane.Staking.Proofs.Principal
import Membrane.Governance.Proofs.ReleasedOnce
import Membrane.StabilityPool.Proofs.Claiming
import Membrane.Cdp.Proofs.Custody
import Membrane.LiqQueue.Proofs.Entitlement
import Membrane.StableEarn.Proofs.Books
