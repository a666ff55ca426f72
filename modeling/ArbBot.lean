import ArbBot.Foundation.Runs
import ArbBot.Foundation.ByteWindow
import ArbBot.Foundation.Base64
import ArbBot.Foundation.Text
import ArbBot.Json
import ArbBot.RouteSig
import ArbBot.Rust
import ArbBot.Metis
import ArbBot.HopKey
import ArbBot.Foundation.Segments
import ArbBot.RouteTemplate
import ArbBot.TemplateStore
import ArbBot.RouteDisk
import ArbBot.StoreRuns
import ArbBot.TierOne.Transparency
import ArbBot.TierOne.Floor
import ArbBot.TierOne.Identity
import ArbBot.TierTwo.Soundness
import ArbBot.TierTwo.Completeness
import ArbBot.FillRuns
import ArbBot.StoreBound
import ArbBot.Foundation.SlidingWindow
import ArbBot.RateLimiter
import ArbBot.AltCache
import ArbBot.Transaction
import ArbBot.Foundation.Interleaving
import ArbBot.Pipeline.Tasks
import ArbBot.Pipeline.Moves
import ArbBot.Pipeline.Funnel
import ArbBot.Pipeline.SendRate
import ArbBot.Concurrent.Sections
import ArbBot.Concurrent.Linearization
import ArbBot.Concurrent.History
import ArbBot.Concurrent.Retention
import ArbBot.Persistence.RoundTrip
import ArbBot.Persistence.Restart
import ArbBot.Foundation.Grouping
import ArbBot.Persistence.HopFiles
import ArbBot.Foundation.Replace
import ArbBot.Persistence.Crash
import ArbBot.Foundation.Register
import ArbBot.Simulator.AccountCache
import ArbBot.Simulator.FetchRace
import ArbBot.Jito.Tokens
import ArbBot.Jito.Authorization
import ArbBot.Pipeline.Permits
import ArbBot.Foundation.Stack
import ArbBot.Pipeline.LastIn
import ArbBot.Pipeline.Grid
import ArbBot.Pipeline.Scan
import ArbBot.Pipeline.OneItem
import ArbBot.Foundation.Simulation
import ArbBot.Pipeline.Independence
import ArbBot.Simulator.Svm
import ArbBot.Simulator.Simulate
import ArbBot.Simulator.Injection
import ArbBot.Simulator.LiveSlot
import ArbBot.TierOne.Offsets
import ArbBot.TierOne.Patching
import ArbBot.Pipeline.FloorArithmetic
import ArbBot.Pipeline.ScanRange
import ArbBot.TierOne.LoadedServe
import ArbBot.TierOne.Encoding
import ArbBot.Building.Malformed
import ArbBot.Building.TipLast
import ArbBot.Simulator.LockCount
import ArbBot.Simulator.Residue
import ArbBot.Foundation.Agreement
import ArbBot.Simulator.Reuse
import ArbBot.Simulator.WorkerPool
import ArbBot.Jito.EmptyRefresh
import ArbBot.Simulator.ProfitGate
import ArbBot.Foundation.Words
import ArbBot.SigHalves
import ArbBot.Foundation.Blocks
import ArbBot.TokenMetrics.Calendar
import ArbBot.DexAccounts
import ArbBot.TokenMetrics.Accounting
import ArbBot.TokenMetrics.Reporter
import ArbBot.TokenMetrics.Written
import ArbBot.HitCount
import ArbBot.Persistence.HopSightings
import ArbBot.Pipeline.Opportunity
import ArbBot.Pipeline.StoreCalls
import ArbBot.Persistence.Lifetimes
import ArbBot.Building.Traced
import ArbBot.Pipeline.Columns
import ArbBot.Pipeline.Windows
import ArbBot.Foundation.Race
import ArbBot.Jito.Broadcast
import ArbBot.Foundation.Linearizable
import ArbBot.Concurrent.Sessions
import ArbBot.Pipeline.Progress
import ArbBot.Building.Growing
import ArbBot.Simulator.Processing
import ArbBot.Simulator.Sending
import ArbBot.Simulator.Ledger
import ArbBot.Foundation.Counting
import ArbBot.Simulator.Replay
import ArbBot.TierOne.Statistics
