import TaikoGateway.Lib.Run
import TaikoGateway.Lib.Bytes
import TaikoGateway.Lib.Regroup
import TaikoGateway.Lib.Window
import TaikoGateway.Lib.Observe
import TaikoGateway.Lib.Outstanding
import TaikoGateway.Lib.PerKey
import TaikoGateway.Lib.KeyedFold
import TaikoGateway.Lib.Greedy
import TaikoGateway.Lib.Confluence
import TaikoGateway.Lib.Ancestry
import TaikoGateway.Lib.Edges
import TaikoGateway.Lib.Tasks
import TaikoGateway.Lib.Text
import TaikoGateway.Lib.Lowercase
import TaikoGateway.Types
import TaikoGateway.Lookahead
import TaikoGateway.Blob
import TaikoGateway.Request
import TaikoGateway.Resync
import TaikoGateway.Timestamps
import TaikoGateway.ProposeBatch
import TaikoGateway.TxPool
import TaikoGateway.PoolShape
import TaikoGateway.Sorting
import TaikoGateway.SortRun
import TaikoGateway.Books
import TaikoGateway.Context
import TaikoGateway.Sequencer
import TaikoGateway.Loop
import TaikoGateway.OrderNonces
import TaikoGateway.Chains
import TaikoGateway.Aborts
import TaikoGateway.Batches
import TaikoGateway.SharedAnchor
import TaikoGateway.StatusCheck
import TaikoGateway.StateIds
import TaikoGateway.InFlight
import TaikoGateway.NewBlock
import TaikoGateway.Reproposal
import TaikoGateway.Contiguous
import TaikoGateway.ParentRules
import TaikoGateway.L2Chain
import TaikoGateway.Verification
import TaikoGateway.L2Head
import TaikoGateway.ReorgReport
import TaikoGateway.SafeHeader
import TaikoGateway.PoolLoop
import TaikoGateway.NonceCache
import TaikoGateway.Splitting
import TaikoGateway.PendingGroups
import TaikoGateway.Reanchoring
import TaikoGateway.LookaheadLoop
import TaikoGateway.TimeShift
import TaikoGateway.BatchLimit
import TaikoGateway.FullBatch
import TaikoGateway.OriginFetch
import TaikoGateway.InvalidReason
import TaikoGateway.Fees
import TaikoGateway.Underpriced
import TaikoGateway.PoolSelection
import TaikoGateway.SimResult
import TaikoGateway.OnePerSender
import TaikoGateway.BatchOrder
import TaikoGateway.Rounds
import TaikoGateway.Replacements
import TaikoGateway.Propose
import TaikoGateway.LivePending
import TaikoGateway.BalanceMonitor
import TaikoGateway.ParentAnchor
import TaikoGateway.FailReason
import TaikoGateway.Derivation
import TaikoGateway.DerivedSeals
import TaikoGateway.DerivedResync
import TaikoGateway.Handover
import TaikoGateway.ProposalOrder
import TaikoGateway.RevertReason
import TaikoGateway.LandedChain
import TaikoGateway.BatchSize
import TaikoGateway.ExternalAborts
import TaikoGateway.Exclusive
import TaikoGateway.BaseFee
import TaikoGateway.Pace
import TaikoGateway.Simulations
