import AsterNet.Lib.ByteString
import AsterNet.Lib.UnorderedMap
import AsterNet.Public.ResponseInfo

/-!
# The metrics collector (`metrics.cpp`)

`MetricsCollectorImpl` over the state behind its mutex: a report is one section under it, so what any
number of threads make of a collector is a sequence of reports.  Counters and sums are unbounded.  The
order of the `failure_stages` map shows in the dump only.
-/

namespace AsterNet

namespace Monitor

open ByteString

/-- `RequestMetrics`. -/
structure RequestMetrics where
  response : ResponseInfo := {}
  requestId : ℕ := 0
  networkEpoch : ℕ := 0
  attempts : ℤ := 1
  connectionReused : Bool := false
  cacheHit : Bool := false
  deduplicated : Bool := false
  failureStage : Bytes := []
  deriving DecidableEq, Repr

/-- `StageStats`: the funnel of a stage, and the times that were measured of it. -/
structure StageStats where
  started : ℕ := 0
  succeeded : ℕ := 0
  failed : ℕ := 0
  samples : ℕ := 0
  totalMs : ℤ := 0
  minMs : ℤ := -1
  maxMs : ℤ := 0
  deriving DecidableEq, Repr

/-- `average_ms`. -/
def StageStats.averageMs (stage : StageStats) : ℤ :=
  if stage.samples = 0 then -1 else stage.totalMs.tdiv stage.samples

/-- `MetricsSnapshot`. -/
structure MetricsSnapshot where
  events : ℕ := 0
  requests : ℕ := 0
  success : ℕ := 0
  failure : ℕ := 0
  degraded : ℕ := 0
  deduplicated : ℕ := 0
  connectionReused : ℕ := 0
  cacheHit : ℕ := 0
  attempts : ℕ := 0
  avgTotalMs : ℤ := -1
  maxTotalMs : ℤ := -1
  dns : StageStats := {}
  connect : StageStats := {}
  tls : StageStats := {}
  ttfb : StageStats := {}
  transfer : StageStats := {}
  total : StageStats := {}
  failureStages : AList fun _ : Bytes => ℕ := ∅

/-- `MetricsCollectorImpl::State`. -/
structure State where
  maxEvents : ℕ
  snapshot : MetricsSnapshot := {}
  events : List RequestMetrics := []

/-- A new collector. -/
def State.new (max : ℕ) : State := { maxEvents := if max = 0 then 1 else max }

/-- The measured time of `update_stage`. -/
def StageStats.sample (stage : StageStats) (ms : ℤ) : StageStats :=
  if 0 ≤ ms then
    { stage with
      samples := stage.samples + 1
      totalMs := stage.totalMs + ms
      minMs := if stage.minMs < 0 ∨ ms < stage.minMs then ms else stage.minMs
      maxMs := if stage.maxMs < ms then ms else stage.maxMs }
  else stage

/-- `update_stage`. -/
def updateStage (stage : StageStats) (started succeeded failed : Bool) (ms : ℤ) : StageStats :=
  { stage with
    started := if started then stage.started + 1 else stage.started
    succeeded := if succeeded then stage.succeeded + 1 else stage.succeeded
    failed := if failed then stage.failed + 1 else stage.failed }.sample ms

/-- `kMaxFailureStages`. -/
def kMaxFailureStages : ℕ := 32

/-- `tally_failure_stage`. -/
def tallyFailureStage (stages : AList fun _ : Bytes => ℕ) (stage : Bytes) : AList fun _ : Bytes => ℕ :=
  if stage = [] then stages
  else
    let normalized := if 64 < stage.length then stage.take 64 else stage
    if normalized ∈ stages then UnorderedMap.increment normalized stages
    else if kMaxFailureStages ≤ stages.keys.length then UnorderedMap.increment (ascii "other") stages
    else stages.insert normalized 1

namespace RequestMetrics

/-! ### The conditions of `report_request` -/

def dnsFailed (metrics : RequestMetrics) : Bool :=
  metrics.response.result == .errDns || metrics.failureStage == ascii "dns"

def connectStarted (metrics : RequestMetrics) : Bool :=
  !metrics.dnsFailed && !metrics.connectionReused
    && (decide (0 ≤ metrics.response.connectMs) || metrics.response.result == .errConnect
      || metrics.failureStage == ascii "connect")

def connectFailed (metrics : RequestMetrics) : Bool :=
  metrics.response.result == .errConnect || metrics.failureStage == ascii "connect"

def h3HandshakeTimeout (metrics : RequestMetrics) : Bool :=
  metrics.response.protocol == .http3 && metrics.failureStage == ascii "timeout"
    && decide (metrics.response.tlsMs < 0) && decide (metrics.response.ttfbMs < 0)

def tlsStarted (metrics : RequestMetrics) : Bool :=
  metrics.connectStarted && !metrics.connectFailed
    && (decide (0 ≤ metrics.response.tlsMs) || metrics.response.result == .errTls
      || metrics.failureStage == ascii "tls" || metrics.h3HandshakeTimeout)

def tlsFailed (metrics : RequestMetrics) : Bool :=
  metrics.response.result == .errTls || metrics.failureStage == ascii "tls" || metrics.h3HandshakeTimeout

def ttfbStarted (metrics : RequestMetrics) : Bool :=
  metrics.tlsStarted && !metrics.tlsFailed
    && (decide (0 ≤ metrics.response.ttfbMs) || metrics.failureStage == ascii "ttfb"
      || metrics.failureStage == ascii "timeout")

def ttfbFailed (metrics : RequestMetrics) : Bool := decide (metrics.response.ttfbMs < 0)

def transferStarted (metrics : RequestMetrics) : Bool := decide (0 ≤ metrics.response.ttfbMs)

def transferMs (metrics : RequestMetrics) : ℤ :=
  if 0 ≤ metrics.response.totalMs ∧ 0 ≤ metrics.response.ttfbMs then
    metrics.response.totalMs - metrics.response.ttfbMs
  else -1

def succeeded (metrics : RequestMetrics) : Bool := metrics.response.result == .ok

/-- The stage a report is tallied under. -/
def talliedStage (metrics : RequestMetrics) : Bytes :=
  if metrics.failureStage ≠ [] then metrics.failureStage
  else if metrics.response.result = .ok then [] else ascii "internal"

end RequestMetrics

/-- What `report_request` counts, before it looks at the stages. -/
def countRequest (metrics : RequestMetrics) (snapshot : MetricsSnapshot) : MetricsSnapshot :=
  { snapshot with
    requests := snapshot.requests + 1
    attempts := snapshot.attempts + if 0 < metrics.attempts then metrics.attempts.toNat else 1
    success := if metrics.response.result = .ok then snapshot.success + 1 else snapshot.success
    failure := if metrics.response.result = .ok then snapshot.failure else snapshot.failure + 1
    degraded := if metrics.response.degraded ≠ 0 then snapshot.degraded + 1 else snapshot.degraded
    connectionReused :=
      if metrics.connectionReused then snapshot.connectionReused + 1 else snapshot.connectionReused
    cacheHit := if metrics.cacheHit then snapshot.cacheHit + 1 else snapshot.cacheHit
    deduplicated := if metrics.deduplicated then snapshot.deduplicated + 1 else snapshot.deduplicated
    maxTotalMs :=
      if 0 ≤ metrics.response.totalMs ∧
          (snapshot.maxTotalMs < 0 ∨ snapshot.maxTotalMs < metrics.response.totalMs) then
        metrics.response.totalMs
      else snapshot.maxTotalMs }

/-- The stages of `report_request`. -/
def updateStages (metrics : RequestMetrics) (snapshot : MetricsSnapshot) : MetricsSnapshot :=
  { snapshot with
    dns := updateStage snapshot.dns true (!metrics.dnsFailed) metrics.dnsFailed metrics.response.dnsMs
    connect :=
      if metrics.connectStarted then
        updateStage snapshot.connect true (!metrics.connectFailed) metrics.connectFailed
          metrics.response.connectMs
      else snapshot.connect
    tls :=
      if metrics.tlsStarted then
        updateStage snapshot.tls true (!metrics.tlsFailed) metrics.tlsFailed metrics.response.tlsMs
      else snapshot.tls
    ttfb :=
      if metrics.ttfbStarted then
        updateStage snapshot.ttfb true (!metrics.ttfbFailed) metrics.ttfbFailed metrics.response.ttfbMs
      else snapshot.ttfb
    transfer :=
      if metrics.transferStarted then
        updateStage snapshot.transfer true metrics.succeeded (!metrics.succeeded) metrics.transferMs
      else snapshot.transfer
    total :=
      updateStage snapshot.total true metrics.succeeded (!metrics.succeeded) metrics.response.totalMs
    failureStages := tallyFailureStage snapshot.failureStages metrics.talliedStage }

/-- The event buffer after one more event. -/
def pushEvent (maxEvents : ℕ) (events : List RequestMetrics) (metrics : RequestMetrics) :
    List RequestMetrics :=
  (if events.length = maxEvents then events.tail else events) ++ [metrics]

/-- `report_request`. -/
def reportRequest (s : State) (metrics : RequestMetrics) : State :=
  let events := pushEvent s.maxEvents s.events metrics
  { s with
    snapshot := { updateStages metrics (countRequest metrics s.snapshot) with events := events.length }
    events }

/-- `report`. -/
def report (s : State) (response : ResponseInfo) : State := reportRequest s { response }

/-- `MetricsCollectorImpl::snapshot`. -/
def State.currentSnapshot (s : State) : MetricsSnapshot :=
  { s.snapshot with avgTotalMs := s.snapshot.total.averageMs }

/-- `recent_events`. -/
def State.recentEvents (s : State) : List RequestMetrics := s.events

/-- A collector after a sequence of reports. -/
def reported (maxEvents : ℕ) (events : List RequestMetrics) : State :=
  events.foldl reportRequest (State.new maxEvents)

theorem reported_append (maxEvents : ℕ) (events : List RequestMetrics) (metrics : RequestMetrics) :
    reported maxEvents (events ++ [metrics]) = reportRequest (reported maxEvents events) metrics := by
  unfold reported
  rw [List.foldl_append]
  rfl

end Monitor

end AsterNet
