import AsterNet.Connection.ConnectionPool
import AsterNet.Dns.Resolver
import AsterNet.Lib.Double
import AsterNet.Monitor.Metrics
import AsterNet.Public.Codes
import AsterNet.Sdt.Prober

/-!
# The diagnosis of a client (`Client::dump_diag`)

The `dump` of each component, what the client makes of them, and how the text comes out of
`asternet_client_dump_diagnostics` and the Android binding.
-/

namespace AsterNet

open ByteString Json

/-- A name of an object, up to its value. -/
def key (name : String) : Bytes := ascii "\"" ++ ascii name ++ ascii "\":"

/-- `SmartDnsResolverImpl::dump`. -/
def Dns.dump (s : Dns.State) : Bytes :=
  ascii "\x7b" ++ key "entries" ++ decimal s.cache.entries.length ++ ascii "," ++ key "health"
    ++ decimal s.health.entries.length ++ ascii "," ++ key "network_epoch" ++ decimal s.lastNetworkEpoch
    ++ ascii "\x7d"

/-- `ConnectionPoolImpl::dump`. -/
def ConnectionPool.dump (s : ConnectionPool.State) : Bytes :=
  let current := snapshot s
  ascii "\x7b" ++ key "origins" ++ decimal current.origins ++ ascii "," ++ key "active_leases"
    ++ decimal current.activeLeases ++ ascii "," ++ key "prefetches" ++ decimal current.prefetches
    ++ ascii "," ++ key "migrations" ++ decimal current.migrations ++ ascii "," ++ key "evictions"
    ++ decimal current.evictions ++ ascii "," ++ key "last_prefetch_result"
    ++ intText current.lastPrefetchResult.code ++ ascii "," ++ key "last_migration_result"
    ++ intText current.lastMigrationResult.code ++ ascii "," ++ key "network_epoch"
    ++ decimal current.networkEpoch ++ ascii "\x7d"

/-- `QualityProberImpl::dump`. -/
def Prober.dump (s : Prober.State) : Bytes :=
  let current := s.snapshot
  ascii "\x7b" ++ key "score" ++ intText current.score ++ ascii "," ++ key "quality"
    ++ intText current.quality.code ++ ascii "," ++ key "samples" ++ decimal current.samples
    ++ ascii "," ++ key "probe_count" ++ decimal current.probeCount ++ ascii "," ++ key "success_samples"
    ++ decimal current.successSamples ++ ascii "," ++ key "failure_samples" ++ decimal current.failureSamples
    ++ ascii "," ++ key "failures" ++ decimal current.consecutiveFailures ++ ascii "," ++ key "total_failures"
    ++ decimal current.totalFailures ++ ascii "," ++ key "loss_permil" ++ intText current.lossPermil
    ++ ascii "," ++ key "smoothed_rtt_ms" ++ intText current.smoothedRttMs
    ++ ascii "," ++ key "last_probe_ms" ++ intText current.lastProbeMs
    ++ ascii "," ++ key "last_success_ms" ++ intText current.lastSuccessMs
    ++ ascii "," ++ key "last_failure_ms" ++ intText current.lastFailureMs
    ++ ascii "," ++ key "last_quality_change_ms" ++ intText current.lastQualityChangeMs
    ++ ascii "," ++ key "last_sample_ms" ++ intText current.lastSampleMs
    ++ ascii "," ++ key "network" ++ intText current.network.code
    ++ ascii "," ++ key "network_epoch" ++ decimal current.networkEpoch ++ ascii "\x7d"

namespace Monitor

/-- `kHex`. -/
def kHex : Bytes := ascii "0123456789abcdef"

/-- What `escape_json` writes for a byte. -/
def escapeByte (c : UInt8) : Bytes :=
  if c = 92 then ascii "\\\\"
  else if c = 34 then ascii "\\\""
  else if c = 10 then ascii "\\n"
  else if c = 13 then ascii "\\r"
  else if c = 9 then ascii "\\t"
  else if c < 0x20 then ascii "\\u00" ++ [kHex.getD (c >>> 4 &&& 0x0f).toNat 0, kHex.getD (c &&& 0x0f).toNat 0]
  else [c]

/-- `escape_json`. -/
def escapeJson (input : Bytes) : Bytes := input.flatMap escapeByte

/-- `StageStats::success_rate`. -/
def StageStats.successRate (stage : StageStats) : Float.Model.UnpackedFloat :=
  if stage.started = 0 then .ofInt .binary64 (-1) else Double.quotient stage.succeeded stage.started

/-- `stage_json`. -/
def stageJson (stage : StageStats) : Bytes :=
  ascii "\x7b" ++ key "started" ++ decimal stage.started
    ++ ascii "," ++ key "succeeded" ++ decimal stage.succeeded
    ++ ascii "," ++ key "failed" ++ decimal stage.failed
    ++ ascii "," ++ key "success_rate"
    ++ (if stage.started = 0 then intText (-1) else Double.streamText stage.successRate)
    ++ ascii "," ++ key "avg_ms" ++ intText stage.averageMs
    ++ ascii "," ++ key "min_ms" ++ intText stage.minMs
    ++ ascii "," ++ key "max_ms" ++ intText stage.maxMs ++ ascii "\x7d"

/-- The stages in the order of a `std::map`. -/
def sortedStages (stages : AList fun _ : Bytes => ℕ) : List (Σ _ : Bytes, ℕ) :=
  stages.entries.mergeSort fun a b => decide (a.1 ≤ b.1)

/-- The loop of `snapshot_json` over the failure stages, with `first`. -/
def failureStagesJson (stages : List (Σ _ : Bytes, ℕ)) : Bytes :=
  (stages.foldl (fun (s : Bytes × Bool) entry =>
    (s.1 ++ (if s.2 then [] else ascii ",") ++ ascii "\"" ++ escapeJson entry.1 ++ ascii "\":"
      ++ decimal entry.2, false)) ([], true)).1

/-- `snapshot_json`. -/
def snapshotJson (snapshot : MetricsSnapshot) : Bytes :=
  ascii "\x7b" ++ key "events" ++ decimal snapshot.events
    ++ ascii "," ++ key "metrics"
    ++ ascii "\x7b" ++ key "requests" ++ decimal snapshot.requests
    ++ ascii "," ++ key "success" ++ decimal snapshot.success
    ++ ascii "," ++ key "failure" ++ decimal snapshot.failure
    ++ ascii "," ++ key "degraded" ++ decimal snapshot.degraded
    ++ ascii "," ++ key "deduplicated" ++ decimal snapshot.deduplicated
    ++ ascii "," ++ key "connection_reused" ++ decimal snapshot.connectionReused
    ++ ascii "," ++ key "cache_hit" ++ decimal snapshot.cacheHit
    ++ ascii "," ++ key "attempts" ++ decimal snapshot.attempts
    ++ ascii "," ++ key "avg_total_ms" ++ intText snapshot.avgTotalMs
    ++ ascii "," ++ key "max_total_ms" ++ intText snapshot.maxTotalMs
    ++ ascii "," ++ key "stages" ++ ascii "\x7b"
    ++ key "dns" ++ stageJson snapshot.dns ++ ascii ","
    ++ key "connect" ++ stageJson snapshot.connect ++ ascii ","
    ++ key "tls" ++ stageJson snapshot.tls ++ ascii ","
    ++ key "ttfb" ++ stageJson snapshot.ttfb ++ ascii ","
    ++ key "transfer" ++ stageJson snapshot.transfer ++ ascii ","
    ++ key "total" ++ stageJson snapshot.total ++ ascii "\x7d"
    ++ ascii "," ++ key "failure_stages" ++ ascii "\x7b"
    ++ failureStagesJson (sortedStages snapshot.failureStages)
    ++ ascii "\x7d\x7d" ++ ascii "\x7d"

/-- `MetricsCollectorImpl::dump`. -/
def dump (s : State) : Bytes := snapshotJson s.currentSnapshot

end Monitor

namespace Client

/-- What `dump_diag` reads of a client. -/
structure Parts where
  networkEpoch : ℕ
  resolver : Dns.State
  pool : ConnectionPool.State
  prober : Prober.State
  metrics : Monitor.State

/-- `Client::dump_diag`; `active` is `is_active_client`, and `threw` says that the dump of the metrics
did. -/
def dumpDiag (active threw : Bool) (parts : Parts) : Bytes :=
  if active then ascii "\x7b\x7d"
  else
    let metricsDump := if threw then ascii "\x7b\x7d" else Monitor.dump parts.metrics
    ascii "\x7b" ++ key "network_epoch" ++ decimal parts.networkEpoch
      ++ ascii "," ++ key "dns" ++ Dns.dump parts.resolver
      ++ ascii "," ++ key "connections" ++ ConnectionPool.dump parts.pool
      ++ ascii "," ++ key "quality" ++ Prober.dump parts.prober
      ++ ascii "," ++ key "metrics" ++ metricsDump ++ ascii "\x7d"

end Client

namespace Abi

/-- The end of `asternet_client_dump_diagnostics` and of `asternet_client_trace_route`: what is returned,
and what the buffer begins with. -/
def copyOut (diagnostics : Bytes) (outCapacity : ℕ) : ℕ × Bytes :=
  let copied := if diagnostics.length < outCapacity - 1 then diagnostics.length else outCapacity - 1
  (copied, diagnostics.take copied ++ [0])

/-- How the text for the buffer is made: the handle yields no client, the client answers, or something
throws. -/
inductive Answer
  | refused
  | text (diagnostics : Bytes)
  | threw
  deriving DecidableEq, Repr

/-- `asternet_client_dump_diagnostics` with a buffer. -/
def dumpDiagnostics (answer : Answer) (outCapacity : ℕ) : ℕ × Bytes :=
  if outCapacity = 0 then (0, [])
  else
    match answer with
    | .refused => (0, [])
    | .text diagnostics => copyOut diagnostics outCapacity
    | .threw => copyOut (ascii "\x7b\"error\":\"OUT_OF_MEMORY\"\x7d") outCapacity

end Abi

namespace Jni

/-- The size of the buffer. -/
def dumpCapacity : ℕ := 64 * 1024

/-- `nativeDumpDiagnostics`: the bytes given to `NewStringUTF`. -/
def nativeDumpDiagnostics (answer : Abi.Answer) : Bytes :=
  let dumped := Abi.dumpDiagnostics answer dumpCapacity
  if dumped.1 = 0 then ascii "\x7b\x7d"
  else if dumpCapacity - 1 ≤ dumped.1 then ascii "\x7b\"error\":\"TRUNCATED\"\x7d"
  else cStr dumped.2

end Jni

end AsterNet
