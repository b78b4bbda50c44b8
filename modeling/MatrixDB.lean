import MatrixDB.Lib.Bytes
import MatrixDB.Lib.LinearProbe
import MatrixDB.KVStore
import MatrixDB.ColdStore.Replay
import MatrixDB.Engine.PointOps
import MatrixDB.Engine.CheckpointFile
import MatrixDB.Engine.Recovery
import MatrixDB.Engine.Durability
import MatrixDB.Engine.Histories
import MatrixDB.ColdStore.Units
import MatrixDB.Engine.Failures
import MatrixDB.Compute.Reduce
import MatrixDB.Tier.Column
import MatrixDB.Tier.Manager
import MatrixDB.Catalog.State
import MatrixDB.Tier.Inert
import MatrixDB.Catalog.Query
import MatrixDB.Catalog.Residency
import MatrixDB.Catalog.Answer
import MatrixDB.Catalog.Loading
import MatrixDB.Compute.Integers
import MatrixDB.Catalog.Reference
import MatrixDB.Catalog.Nulls
import MatrixDB.Catalog.Snapshot
import MatrixDB.Catalog.Restore
import MatrixDB.Catalog.Alignment
import MatrixDB.Server.Wire
import MatrixDB.Server.Core
import MatrixDB.Server.Isolation
import MatrixDB.Lib.SharedLock
import MatrixDB.Server.Linearization
import MatrixDB.Server.Codec
import MatrixDB.Query.Parser
import MatrixDB.Server.Audit
import MatrixDB.Catalog.Ingest
import MatrixDB.Catalog.Lockstep
import MatrixDB.Catalog.Transparency
import MatrixDB.Catalog.Growing
import MatrixDB.Catalog.History
import MatrixDB.Catalog.Runs
import MatrixDB.Catalog.Live
import MatrixDB.Server.Serving
import MatrixDB.Engine.OrderedIndex
import MatrixDB.Backup.Calls
import MatrixDB.Backup.Index
import MatrixDB.Backup.Durability
import MatrixDB.Lib.StreamLink
import MatrixDB.Server.Responses
import MatrixDB.Server.Connection
import MatrixDB.Server.Authentication
import MatrixDB.Server.Client
import MatrixDB.Tier.Eviction
import MatrixDB.Tier.Runs
import MatrixDB.Tier.Capacity
import MatrixDB.KVStore.Refinement
import MatrixDB.Catalog.Dictionaries
import MatrixDB.Catalog.Reopen
import MatrixDB.Catalog.RoundTrip
import MatrixDB.Catalog.Truncation
import MatrixDB.Backup.Failures
import MatrixDB.Catalog.Names
import MatrixDB.Catalog.Restart
import MatrixDB.Query.Resolution
import MatrixDB.Catalog.SafeOpen
import MatrixDB.Lib.RingWindow
import MatrixDB.RingBuffer
import MatrixDB.Lib.CountingSort
import MatrixDB.Engine.Batching
import MatrixDB.Lib.Classes
import MatrixDB.Lib.FloatCount
import MatrixDB.Query.Grouping
import MatrixDB.Lib.SortedRanks
import MatrixDB.Query.Ranks
import MatrixDB.Query.Comparisons
import MatrixDB.Lib.TopRanked
import MatrixDB.Query.Ranking
import MatrixDB.Cli.Aggregates
import MatrixDB.Lib.Separated
import MatrixDB.Query.Lexing
import MatrixDB.Query.Keeping
import MatrixDB.Query.SharedTail
import MatrixDB.Lib.Buckets
import MatrixDB.Catalog.Joins
import MatrixDB.Query.Projection
import MatrixDB.Lib.Extremes
import MatrixDB.Catalog.Scans
import MatrixDB.Cli.JoinLines
import MatrixDB.Cli.Router
import MatrixDB.Cli.JoinAnswers
import MatrixDB.Cli.JoinAggregates
import MatrixDB.Cli.Limits
import MatrixDB.Cli.Routing
import MatrixDB.Query.Counts
import MatrixDB.Cli.Cells
import MatrixDB.Cli.PrintedCounts
import MatrixDB.Cli.PrintedValues
import MatrixDB.Cli.Steady
import MatrixDB.Catalog.CsvReaders
import MatrixDB.Query.Rejoining
import MatrixDB.Lib.BlockReduce
import MatrixDB.Gpu.Kernels
import MatrixDB.Gpu.Reductions
import MatrixDB.Gpu.ScanCoverage
import MatrixDB.ColdStore.TornLog
import MatrixDB.Lib.BitwiseCrc
import MatrixDB.ColdStore.Corruption
import MatrixDB.Gpu.Backends
import MatrixDB.Server.WalRecords
import MatrixDB.Cli.Repl
import MatrixDB.Server.Latency
import MatrixDB.Cli.FreshIds
import MatrixDB.Query.Returns
import MatrixDB.Cli.Returns
import MatrixDB.Cli.Sessions
import MatrixDB.Pipeline.Stages
import MatrixDB.Pipeline.RingCalls
import MatrixDB.Pipeline.InOrder
import MatrixDB.Gpu.ScanEngine
import MatrixDB.Pipeline.Router
import MatrixDB.Pipeline.Completion
import MatrixDB.Pipeline.Workload
import MatrixDB.Server.Daemon
import MatrixDB.Server.DaemonOrder
import MatrixDB.Server.DaemonCrash
