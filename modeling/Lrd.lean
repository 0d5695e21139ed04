import Lrd.Foundation.Scalar
import Lrd.Foundation.Program
import Lrd.Foundation.Interleaving
import Lrd.Foundation.Linearization
import Lrd.Foundation.Readings
import Lrd.Foundation.Condition
import Lrd.Foundation.Layers
import Lrd.Foundation.StableList
import Lrd.Foundation.Heap
import Lrd.Foundation.Greatest
import Lrd.Foundation.GreedyRun
import Lrd.Foundation.SlidingWindow
import Lrd.Foundation.BigEndian
import Lrd.Foundation.Rounding
import Lrd.Foundation.Words
import Lrd.Foundation.Cursor
import Lrd.Foundation.Tagged
import Lrd.Foundation.Machine
import Lrd.Foundation.Disclosure
import Lrd.Foundation.Recency
import Lrd.Foundation.Residence
import Lrd.Foundation.Frames
import Lrd.Foundation.Records
import Lrd.Foundation.Slots
import Lrd.Foundation.Handles
import Lrd.Common.Sharding
import Lrd.Common.HashMix
import Lrd.Rank.Item
import Lrd.Rank.Selector
import Lrd.Rank.Retrieval
import Lrd.Rank.Greedy
import Lrd.Rank.ScanOrder
import Lrd.Rank.TopK
import Lrd.Rank.Diversity
import Lrd.Rank.Raise
import Lrd.Rank.Withdrawal
import Lrd.Policy.ExposureStore
import Lrd.Policy.ItemView
import Lrd.Policy.ItemLog
import Lrd.Policy.Window
import Lrd.Policy.ShowLog
import Lrd.Policy.Tracking
import Lrd.Policy.FailOpen
import Lrd.Policy.Refusals
import Lrd.Policy.Filling
import Lrd.Cache.LruCache
import Lrd.Cache.ShardedCache
import Lrd.Cache.ExactLru
import Lrd.Cache.ShardProduct
import Lrd.Cache.Inclusion
import Lrd.Cache.Residents
import Lrd.Cache.Metrics
import Lrd.Cache.Tally
import Lrd.Privacy.NoisyCounters
import Lrd.Privacy.Publication
import Lrd.Privacy.Sampler
import Lrd.Net.Io
import Lrd.Proto.Wire
import Lrd.Proto.SpanReader
import Lrd.Proto.Message
import Lrd.Proto.Codec
import Lrd.Proto.Grammar
import Lrd.Proto.RoundTrip
import Lrd.Proto.Framing
import Lrd.Proto.FrameSteps
import Lrd.Proto.Unique
import Lrd.Proto.Refusal
import Lrd.Proto.Truncation
import Lrd.Proto.Protobuf
import Lrd.Proto.Envelope
import Lrd.Proto.Interchange
import Lrd.Daemon.Handler
import Lrd.Daemon.Recommend
import Lrd.Daemon.Preview
import Lrd.Daemon.Footprint
import Lrd.Daemon.Reservations
import Lrd.Daemon.Charging
import Lrd.Daemon.Frequency
import Lrd.Daemon.Answers
import Lrd.Daemon.Versions
import Lrd.Daemon.ExactCounters
import Lrd.Daemon.Leakage
import Lrd.Daemon.Scans
import Lrd.Daemon.Statistics
import Lrd.Daemon.LiveStatistics
import Lrd.Daemon.Linearizable
import Lrd.Daemon.Promotion
import Lrd.Daemon.Retention
import Lrd.Daemon.Overrun
import Lrd.Daemon.Server
import Lrd.Daemon.Replies
import Lrd.Daemon.ItemAge
import Lrd.Daemon.Serving
import Lrd.Daemon.Connections
import Lrd.Daemon.HardRules
import Lrd.Daemon.Withdrawal
import Lrd.Concurrency.ThreadPool
import Lrd.Concurrency.Shutdown
import Lrd.Concurrency.Wakeups
import Lrd.Daemon.Registry
import Lrd.Daemon.Stopping
import Lrd.Daemon.AcceptLoop
import Lrd.Client.Connection
import Lrd.Client.Methods
import Lrd.Client.Link
import Lrd.Client.Session
import Lrd.Client.Matching
import Lrd.Client.Custody
import Lrd.Sdk.Client
import Lrd.Sdk.Owners
import Lrd.Sdk.Pool
import Lrd.Sdk.Wakeups
import Lrd.Sdk.Attempts
import Lrd.Sdk.Exchanges
import Lrd.Sdk.Reconfigured
import Lrd.Sdk.Overtaking
import Lrd.Sdk.Invoke
import Lrd.Sdk.Restart
import Lrd.Sdk.Failures
