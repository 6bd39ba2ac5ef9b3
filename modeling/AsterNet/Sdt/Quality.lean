import AsterNet.Public.Asternet

/-!
# Network quality snapshots (`quality_prober.h`)
-/

namespace AsterNet

/-- `sdt::NetworkQuality`. -/
inductive NetworkQuality
  | unknown
  | good
  | degraded
  | bad
  | offline
  deriving DecidableEq, Repr

/-- `sdt::QualitySnapshot`. -/
structure QualitySnapshot where
  score : ℤ := -1
  quality : NetworkQuality := .unknown
  network : Network := .unknown
  samples : ℕ := 0
  probeCount : ℕ := 0
  successSamples : ℕ := 0
  failureSamples : ℕ := 0
  consecutiveFailures : ℕ := 0
  totalFailures : ℕ := 0
  smoothedRttMs : ℤ := -1
  lossPermil : ℤ := -1
  bandwidthKbps : ℤ := -1
  lastProbeMs : ℤ := 0
  lastSuccessMs : ℤ := 0
  lastFailureMs : ℤ := 0
  lastQualityChangeMs : ℤ := 0
  lastSampleMs : ℤ := 0
  networkEpoch : ℕ := 0
  deriving DecidableEq, Repr

end AsterNet
