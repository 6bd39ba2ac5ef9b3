import AsterNet.Lib.Numeral
import AsterNet.Lib.Spelling
import AsterNet.Lib.Segmented
import AsterNet.Lib.Incremental
import AsterNet.Lib.Program
import AsterNet.Lib.Ghost
import AsterNet.Lib.Transition
import AsterNet.Lib.Cidr
import AsterNet.Lib.UnorderedMap
import AsterNet.Lib.Utf8
import AsterNet.Lib.JsonString
import AsterNet.Lib.Json
import AsterNet.Lib.RequestReader
import AsterNet.Lib.SharedMutex
import AsterNet.Lib.DroppingQueue
import AsterNet.Lib.CheckedInt
import AsterNet.Lib.Recency
import AsterNet.Lib.Population
import AsterNet.Lib.Lifecycle
import AsterNet.Lib.Completion
import AsterNet.Engine.Engine
import AsterNet.Sdt.Quality
import AsterNet.Connection.Pool
import AsterNet.Dns.SafeIp
import AsterNet.Dns.Equiv.SafeIp
import AsterNet.Dns.Resolver
import AsterNet.Dns.Equiv.Filter
import AsterNet.Dns.Session
import AsterNet.Dns.Equiv.Resolve
import AsterNet.Dns.PlainInet
import AsterNet.Dns.Equiv.Ranking
import AsterNet.Dns.Equiv.Eviction
import AsterNet.Dns.Equiv.Freshness
import AsterNet.Dns.Threads
import AsterNet.Dns.Equiv.Threads
import AsterNet.Dns.Equiv.Sources
import AsterNet.Dns.Equiv.Balance
import AsterNet.Dns.Equiv.Invalidation
import AsterNet.Dns.Equiv.Tiers
import AsterNet.Outside
import AsterNet.Abi.Abi
import AsterNet.Abi.Handles
import AsterNet.Abi.Equiv.Handles
import AsterNet.Engine.Pooled
import AsterNet.Engine.Http1.Chunked
import AsterNet.Engine.Http1.Equiv.Chunked
import AsterNet.Engine.Http1.Equiv.SizeLines
import AsterNet.Engine.Http1.ChunkedLoop
import AsterNet.Engine.Http1.Equiv.ChunkedLoop
import AsterNet.Engine.Http1.Response
import AsterNet.Engine.Http1.Engine
import AsterNet.Engine.Http1.Timing
import AsterNet.Engine.Http1.Equiv.Body
import AsterNet.Engine.Http1.Equiv.Request
import AsterNet.Engine.Http1.Equiv.Timing
import AsterNet.Engine.Http1.Message
import AsterNet.Engine.Http1.Equiv.Fields
import AsterNet.Engine.Http1.Equiv.Head
import AsterNet.Engine.Http1.Equiv.Complete
import AsterNet.Engine.Http1.Equiv.Limit
import AsterNet.Engine.Http1.Equiv.Framing
import AsterNet.Engine.Http1.Equiv.Whole
import AsterNet.Engine.Http1.Equiv.Status
import AsterNet.Engine.Http1.Equiv.Segmentation
import AsterNet.Engine.Http1.Equiv.Clean
import AsterNet.Engine.Http2.Context
import AsterNet.Engine.Http2.Engine
import AsterNet.Engine.Http2.Message
import AsterNet.Engine.Http2.Equiv.Deliver
import AsterNet.Engine.Http2.Equiv.Complete
import AsterNet.Engine.Http2.Session
import AsterNet.Engine.Http2.Equiv.OwnBody
import AsterNet.Engine.Http2.Receive
import AsterNet.Engine.Http2.Equiv.Receive
import AsterNet.Engine.Http3.Context
import AsterNet.Engine.Http3.Engine
import AsterNet.Engine.Http3.Message
import AsterNet.Engine.Http3.Equiv.Callbacks
import AsterNet.Engine.Http3.Equiv.Complete
import AsterNet.Engine.Http3.Equiv.Whole
import AsterNet.Engine.Http3.Equiv.Finished
import AsterNet.Engine.Http3.Drive
import AsterNet.Engine.Http3.Equiv.Drive
import AsterNet.Engine.Http3.Equiv.Driven
import AsterNet.Engine.Http3.Equiv.Upload
import AsterNet.Abi.Equiv.Accepted
import AsterNet.Engine.Equiv.SameRequest
import AsterNet.Engine.Http1.Equiv.Serialize
import AsterNet.Engine.Equiv.Alike
import AsterNet.Engine.ProtocolSelector
import AsterNet.Engine.Breaker
import AsterNet.Engine.Equiv.Breaker
import AsterNet.Engine.Equiv.Selector
import AsterNet.Engine.Equiv.Floor
import AsterNet.Engine.Equiv.Rejection
import AsterNet.Engine.Equiv.Reuse
import AsterNet.Orchestrator.Interceptor
import AsterNet.Orchestrator.Coalescer
import AsterNet.Orchestrator.Equiv.Coalescer
import AsterNet.Orchestrator.Equiv.Mutex
import AsterNet.Orchestrator.Equiv.Liveness
import AsterNet.Orchestrator.Equiv.DedupKey
import AsterNet.Connection.ConnectionPool
import AsterNet.Connection.Equiv.Accounting
import AsterNet.Sdt.Prober
import AsterNet.Sdt.Equiv.Prober
import AsterNet.Sdt.Equiv.Verdict
import AsterNet.Sdt.Traceroute
import AsterNet.Sdt.Equiv.Traceroute
import AsterNet.Platform.EventLoop
import AsterNet.Platform.Equiv.EventLoop
import AsterNet.Public.ResponseInfo
import AsterNet.Public.Codes
import AsterNet.Monitor.Metrics
import AsterNet.Protocol.LengthPrefixedCodec
import AsterNet.Protocol.Equiv.LengthPrefixedCodec
import AsterNet.Monitor.Equiv.Conservation
import AsterNet.Monitor.Equiv.Funnel
import AsterNet.Client.Client
import AsterNet.Orchestrator.Equiv.Retry
import AsterNet.Client.Equiv.LastAnswer
import AsterNet.Client.Equiv.Carries
import AsterNet.Client.Threads
import AsterNet.Client.MetricsQueue
import AsterNet.Client.Equiv.MetricsQueue
import AsterNet.Client.Equiv.Threads
import AsterNet.Client.Reentry
import AsterNet.Client.Equiv.Reentry
import AsterNet.Client.Diagnostics
import AsterNet.Client.Equiv.Diagnostics
import AsterNet.Client.Equiv.Epochs
import AsterNet.Client.Equiv.Published
import AsterNet.Client.Equiv.Delivered
import AsterNet.Abi.Equiv.Wire
import AsterNet.Client.Equiv.AtMostOnce
import AsterNet.Client.Equiv.Trace
import AsterNet.Client.Equiv.Deadline
import AsterNet.Client.Equiv.ConnectHost
import AsterNet.Client.Equiv.Evidence
import AsterNet.Abi.RequestSync
import AsterNet.Abi.Equiv.RequestSync
import AsterNet.Jni.Equiv.JsonEscape
import AsterNet.Jni.Bridge
import AsterNet.Jni.Equiv.Bridge
import AsterNet.Protocol.Equiv.Gateway
