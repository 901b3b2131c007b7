import FuryNode.Library.HalfEven
import FuryNode.Library.KeyedTable
import FuryNode.Library.GroupedSums
import FuryNode.Library.EventRuns
import FuryNode.Library.StatefulProgram
import FuryNode.Library.Pagination
import FuryNode.Library.ConstantProduct
import FuryNode.Library.WeightedVotes
import FuryNode.Library.PointSums
import FuryNode.Sdk.Numbers
import FuryNode.Sdk.Chain
import FuryNode.Sdk.World
import FuryNode.Sdk.LedgerBank
import FuryNode.Clp.Calculations
import FuryNode.Clp.Executors
import FuryNode.Clp.Keeper
import FuryNode.Clp.MsgServer
import FuryNode.Clp.LiquidityEffects
import FuryNode.Clp.SwapEffects
import FuryNode.Clp.Delivery
import FuryNode.Clp.Unlocks
import FuryNode.Clp.Solvency
import FuryNode.Clp.Distribution
import FuryNode.Clp.DistributionEffects
import FuryNode.Clp.EndBlock
import FuryNode.Clp.Runs
import FuryNode.Clp.Units
import FuryNode.Clp.PositiveUnits
import FuryNode.Clp.DepthRewards
import FuryNode.Clp.ProviderDistribution
import FuryNode.Margin.Keeper
import FuryNode.Margin.MsgServer
import FuryNode.Margin.Rows
import FuryNode.Margin.Effects
import FuryNode.Margin.WellFormed
import FuryNode.Margin.Failures
import FuryNode.Margin.Books
import FuryNode.Margin.Atomicity
import FuryNode.Margin.Interest
import FuryNode.Margin.Drift
import FuryNode.Margin.Stranding
import FuryNode.Margin.Pricing
import FuryNode.Margin.RoundTrip
import FuryNode.Margin.Underflow
import FuryNode.Margin.Conservation
import FuryNode.Margin.BlockSafety
import FuryNode.Oracle.Keeper
import FuryNode.Oracle.Votes
import FuryNode.Oracle.PlainKeeper
import FuryNode.Oracle.Quorum
import FuryNode.Oracle.Determinism
import FuryNode.EthBridge.Keeper
import FuryNode.EthBridge.PlainBridge
import FuryNode.EthBridge.Finality
import FuryNode.EthBridge.Identity
import FuryNode.Contracts.Valset
import FuryNode.Contracts.ValsetTotals
import FuryNode.Contracts.CosmosBridge
import FuryNode.Contracts.Payouts
import FuryNode.Contracts.ActiveQuorum
import FuryNode.Contracts.Packing
import FuryNode.EthBridge.Transfers
import FuryNode.Contracts.BridgeBank
import FuryNode.EthBridge.Relaying
import FuryNode.Contracts.Redeemable
import FuryNode.Clp.BeginBlock
import FuryNode.Clp.TradeScope
import FuryNode.Clp.ThresholdBound
import FuryNode.Clp.PmtpPolicy
import FuryNode.Clp.SpotPrices
import FuryNode.Clp.SwapSequences
import FuryNode.Clp.Decommission
import FuryNode.Dispensation.Keeper
import FuryNode.Dispensation.Effects
import FuryNode.Dispensation.Solvency
import FuryNode.Dispensation.Interference
import FuryNode.Clp.AsymmetricAdd
import FuryNode.Clp.SwapOutcomes
import FuryNode.Clp.Withdrawals
import FuryNode.Clp.Refunds
import FuryNode.Genesis.State
import FuryNode.Genesis.RoundTrip
import FuryNode.Library.BlockCursor
import FuryNode.Relayer.Ethereum
import FuryNode.Relayer.Cosmos
import FuryNode.Relayer.Delivery
import FuryNode.Clp.UnlockRecords
import FuryNode.Clp.QueuedRemovals
import FuryNode.Clp.FurySales
import FuryNode.Clp.RemovalQueue
import FuryNode.Clp.DiscardedQueueing
import FuryNode.Library.IndexedSet
import FuryNode.Contracts.Blocklist
import FuryNode.Relayer.SymbolTranslator
import FuryNode.App.FeeFloor
import FuryNode.Dispensation.MintCap
import FuryNode.Sdk.Supply
import FuryNode.Library.Bech32
import FuryNode.Contracts.FuryAddresses
import FuryNode.Relayer.ClaimDecoding
import FuryNode.EthBridge.Blacklist
import FuryNode.EthBridge.ExactTransfers
import FuryNode.App.VotingPower
import FuryNode.Margin.Counters
import FuryNode.Clp.PeriodDecisions
import FuryNode.Clp.PriceConversion
import FuryNode.Clp.RewardEmission
import FuryNode.Clp.PayoutOrder
import FuryNode.Clp.Custody
