import AsterNet.Outside

/-!
# The quality prober (`quality_prober.cpp`)

`observe_sample`, `probe` and `on_network_change` over the state behind the prober's mutex.  The
functions take the clock's reading as an argument, and those that may call the quality callback return
the snapshot it is called with.  A probe holds the mutex twice, with its callback in between:
`beginProbe` is the first section and `observeSample` the second one, so what any number of threads make
of a prober is a sequence of `Op`s.

Counters are natural numbers; the smoothing of the round trip time is 32-bit arithmetic.
-/

namespace AsterNet

/-- `sdt::QualitySample`. -/
structure QualitySample where
  rttMs : ℤ := -1
  lossPermil : ℤ := -1
  bandwidthKbps : ℤ := -1
  net : Network := .unknown
  deriving DecidableEq, Repr

namespace Prober

/-- `QualityProberImpl::Config`. -/
structure Config where
  weakScoreThreshold : ℤ := 40
  degradedScoreThreshold : ℤ := 65
  failuresBeforeBad : ℕ := 2
  goodSamplesToRecover : ℕ := 3
  deriving DecidableEq, Repr

/-- The part of `QualityProberImpl::State` that changes. -/
structure State where
  snapshot : QualitySnapshot := {}
  consecutiveGoodSamples : ℕ := 0
  deriving DecidableEq, Repr

/-- `update_loss`. -/
def updateLoss (snapshot : QualitySnapshot) : QualitySnapshot :=
  { snapshot with
    lossPermil := (min 1000 (snapshot.totalFailures * 1000 / max 1 snapshot.samples) : ℕ) }

/-- `has_metrics`. -/
def hasMetrics (sample : QualitySample) : Bool :=
  decide (0 ≤ sample.rttMs) || decide (0 ≤ sample.lossPermil) || decide (0 ≤ sample.bandwidthKbps)

/-- What a round trip time takes off the score. -/
def rttPenalty (rttMs : ℤ) : ℤ :=
  if rttMs < 0 then 0
  else if 2000 ≤ rttMs then 70
  else if 1000 ≤ rttMs then 50
  else if 500 ≤ rttMs then 35
  else if 300 ≤ rttMs then 20
  else if 100 ≤ rttMs then 10
  else 0

/-- What a loss rate takes off the score. -/
def lossPenalty (lossPermil : ℤ) : ℤ :=
  if lossPermil < 0 then 0 else min 30 (lossPermil / 2)

/-- What a bandwidth takes off the score. -/
def bandwidthPenalty (bandwidthKbps : ℤ) : ℤ :=
  if bandwidthKbps < 0 then 0
  else if bandwidthKbps < 100 then 20
  else if bandwidthKbps < 500 then 10
  else 0

/-- `compute_score`. -/
def computeScore (sample : QualitySample) : ℤ :=
  if sample.rttMs < 0 ∧ sample.lossPermil < 0 ∧ sample.bandwidthKbps < 0 then -1
  else
    max 0 (min 100 (100 - rttPenalty sample.rttMs - lossPenalty sample.lossPermil
      - bandwidthPenalty sample.bandwidthKbps))

/-- The smoothed round trip time after a sample of one. -/
def smooth (smoothedRttMs rttMs : ℤ) : ℤ :=
  if smoothedRttMs < 0 then rttMs else (toInt (smoothedRttMs * 7 + rttMs * 3)).tdiv 10

/-- The counters after a failure. -/
def failed (nowMs : ℤ) (current : QualitySnapshot) : QualitySnapshot :=
  updateLoss
    { current with
      failureSamples := current.failureSamples + 1
      totalFailures := current.totalFailures + 1
      consecutiveFailures := current.consecutiveFailures + 1
      lastFailureMs := nowMs }

/-- The failure branch of `observe_sample`; `before` is the quality before the sample. -/
def observeFailure (config : Config) (nowMs : ℤ) (before : NetworkQuality) (current : QualitySnapshot) :
    State :=
  let current := failed nowMs current
  { snapshot :=
      if current.network = .none then { current with quality := .offline, score := 0 }
      else if config.failuresBeforeBad ≤ current.consecutiveFailures then
        { current with quality := .bad, score := 0 }
      else if before = .good then { current with quality := .degraded, score := 0 }
      else { current with score := 0 }
    consecutiveGoodSamples := 0 }

/-- The counters and measurements after a success. -/
def succeeded (nowMs : ℤ) (sample : QualitySample) (current : QualitySnapshot) : QualitySnapshot :=
  { current with
    successSamples := current.successSamples + 1
    lastSuccessMs := nowMs
    consecutiveFailures := 0
    smoothedRttMs :=
      if 0 ≤ sample.rttMs then smooth current.smoothedRttMs sample.rttMs else current.smoothedRttMs
    bandwidthKbps :=
      if 0 ≤ sample.bandwidthKbps then sample.bandwidthKbps else current.bandwidthKbps }

/-- The sample a success is scored by: what the prober already knows stands before what the sample
says. -/
def aggregated (sample : QualitySample) (current : QualitySnapshot) : QualitySample :=
  { sample with
    rttMs := if 0 ≤ current.smoothedRttMs then current.smoothedRttMs else sample.rttMs
    lossPermil := if 0 ≤ current.lossPermil then current.lossPermil else sample.lossPermil
    bandwidthKbps :=
      if 0 ≤ current.bandwidthKbps then current.bandwidthKbps else sample.bandwidthKbps }

/-- The score, unless the sample says nothing. -/
def rescore (score : ℤ) (current : QualitySnapshot) : QualitySnapshot :=
  if 0 ≤ score then { current with score } else current

/-- The end of the success branch: the quality that goes with the new score. -/
def gradeSuccess (config : Config) (before : NetworkQuality) (good : ℕ) (current : QualitySnapshot) :
    State :=
  if current.network = .none then
    { snapshot := { current with quality := .offline, score := 0 } }
  else if 0 ≤ current.score then
    if current.score < config.weakScoreThreshold then
      { snapshot := { current with quality := .bad } }
    else if current.score < config.degradedScoreThreshold then
      { snapshot := { current with quality := .degraded } }
    else
      { snapshot :=
          if before = .unknown ∨ before = .good ∨ config.goodSamplesToRecover ≤ good + 1 then
            { current with quality := .good }
          else current
        consecutiveGoodSamples := good + 1 }
  else { snapshot := current, consecutiveGoodSamples := good }

/-- The success branch of `observe_sample`. -/
def observeSuccess (config : Config) (nowMs : ℤ) (sample : QualitySample) (before : NetworkQuality)
    (good : ℕ) (current : QualitySnapshot) : State :=
  let current := succeeded nowMs sample current
  gradeSuccess config before good (rescore (computeScore (aggregated sample current)) current)

/-- What `observe_sample` writes before it looks at `success`. -/
def noteSample (nowMs : ℤ) (sample : QualitySample) (current : QualitySnapshot) : QualitySnapshot :=
  { current with
    samples := current.samples + 1
    lastSampleMs := nowMs
    network := if sample.net ≠ .unknown then sample.net else current.network }

/-- The state `observe_sample` computes before it brings the loss rate up to date. -/
def graded (config : Config) (nowMs : ℤ) (success : Bool) (sample : QualitySample) (s : State) : State :=
  let current := noteSample nowMs sample s.snapshot
  if success then
    observeSuccess config nowMs sample s.snapshot.quality s.consecutiveGoodSamples current
  else observeFailure config nowMs s.snapshot.quality current

/-- `observe_sample`. -/
def observeSample (config : Config) (nowMs : ℤ) (success : Bool) (sample : QualitySample) (s : State) :
    State × Option QualitySnapshot :=
  let before := s.snapshot
  let after := graded config nowMs success sample s
  let current := updateLoss after.snapshot
  if current.quality ≠ before.quality ∨ current.network ≠ before.network then
    let current := { current with lastQualityChangeMs := nowMs }
    ({ after with snapshot := current }, some current)
  else ({ after with snapshot := current }, none)

/-- `observe`. -/
def observe (config : Config) (nowMs : ℤ) (success : Bool) (rttMs : ℤ) (s : State) :
    State × Option QualitySnapshot :=
  observeSample config nowMs success { rttMs } s

/-- The section of `probe` before its callback. -/
def beginProbe (nowMs : ℤ) (s : State) : State :=
  { s with
    snapshot := { s.snapshot with probeCount := s.snapshot.probeCount + 1, lastProbeMs := nowMs } }

/-- `probe`; `callback` is what the probe callback answers, if there is one. -/
def probe (config : Config) (beginMs nowMs : ℤ) (callback : Option QualitySample) (s : State) :
    ℤ × State :=
  match callback with
  | none => (s.snapshot.score, s)
  | some sample =>
    let s := (observeSample config nowMs (hasMetrics sample) sample (beginProbe beginMs s)).1
    (s.snapshot.score, s)

/-- `is_weak_net`. -/
def isWeakNet (s : State) : Bool :=
  s.snapshot.quality == .degraded || s.snapshot.quality == .bad || s.snapshot.quality == .offline

/-- `on_network_change`. -/
def onNetworkChange (nowMs : ℤ) (networkEpoch : ℕ) (net : Network) (s : State) :
    State × Option QualitySnapshot :=
  let before := s.snapshot
  let snapshot : QualitySnapshot :=
    { networkEpoch
      network := net
      quality := if net = .none then .offline else .unknown
      score := if net = .none then 0 else -1
      lastQualityChangeMs := nowMs }
  ({ snapshot },
    if before.quality = snapshot.quality ∧ before.network = snapshot.network
      ∧ before.networkEpoch = snapshot.networkEpoch then none else some snapshot)

/-- One section under the prober's mutex that writes. -/
inductive Op
  | observeSample (nowMs : ℤ) (success : Bool) (sample : QualitySample)
  | beginProbe (nowMs : ℤ)
  | onNetworkChange (nowMs : ℤ) (networkEpoch : ℕ) (net : Network)
  deriving DecidableEq, Repr

/-- One step of the prober. -/
def apply (config : Config) (s : State) : Op → State
  | .observeSample nowMs success sample => (observeSample config nowMs success sample s).1
  | .beginProbe nowMs => beginProbe nowMs s
  | .onNetworkChange nowMs networkEpoch net => (onNetworkChange nowMs networkEpoch net s).1

/-- The state after a sequence of steps on a new prober. -/
def session (config : Config) (ops : List Op) : State := ops.foldl (apply config) {}

/-- The steps of a `probe`. -/
def probeOps (beginMs nowMs : ℤ) : Option QualitySample → List Op
  | none => []
  | some sample => [.beginProbe beginMs, .observeSample nowMs (hasMetrics sample) sample]

/-- A whole `probe` is its steps one after the other. -/
theorem probe_snd (config : Config) (beginMs nowMs : ℤ) (callback : Option QualitySample) (s : State) :
    (probe config beginMs nowMs callback s).2
      = (probeOps beginMs nowMs callback).foldl (apply config) s := by
  cases callback with
  | none => rfl
  | some sample => rfl

end Prober

end AsterNet
