import AsterNet.Monitor.Equiv.Conservation

/-!
# The end of the funnel

A request that got its first byte has been through DNS, connect and TLS, whether or not it made a
connection of its own.  `funnelKept_iff`: the collector counts all first bytes of a sequence of reports
exactly if each of them comes with a connection that was made, and timed, for its request.
-/

namespace AsterNet

namespace Monitor

open ByteString

namespace RequestMetrics

/-- The response has a first byte. -/
def FirstByte (metrics : RequestMetrics) : Prop := 0 ≤ metrics.response.ttfbMs

instance decidableFirstByte : DecidablePred FirstByte :=
  fun metrics => inferInstanceAs (Decidable (0 ≤ metrics.response.ttfbMs))

/-- The request did not fail at DNS, connect or TLS. -/
structure PastHandshake (metrics : RequestMetrics) : Prop where
  result : metrics.response.result ≠ .errDns ∧ metrics.response.result ≠ .errConnect ∧
    metrics.response.result ≠ .errTls
  failureStage : metrics.failureStage ≠ ascii "dns" ∧ metrics.failureStage ≠ ascii "connect" ∧
    metrics.failureStage ≠ ascii "tls"

/-- The request made a connection of its own, and the steps of that have times. -/
structure OwnHandshake (metrics : RequestMetrics) : Prop where
  fresh : metrics.connectionReused = false
  connect : 0 ≤ metrics.response.connectMs
  tls : 0 ≤ metrics.response.tlsMs

end RequestMetrics

open RequestMetrics

/-- Every first byte is counted, and every transfer has one. -/
structure FunnelKept (events : List RequestMetrics) (snapshot : MetricsSnapshot) : Prop where
  samples_eq : snapshot.ttfb.samples = events.countP (·.FirstByte)
  succeeded_eq : snapshot.ttfb.succeeded = events.countP (·.FirstByte)
  transfer_eq : snapshot.transfer.started = snapshot.ttfb.succeeded

/-- The first bytes the collector counts. -/
def CountsFirstByte (metrics : RequestMetrics) : Prop :=
  metrics.ttfbStarted = true ∧ metrics.FirstByte

instance decidableCountsFirstByte : DecidablePred CountsFirstByte :=
  fun metrics => inferInstanceAs (Decidable (metrics.ttfbStarted = true ∧ metrics.FirstByte))

/-- A request that got past TLS reaches the stage of the first byte if it made its own connection. -/
theorem ttfbStarted_iff {metrics : RequestMetrics} (hfirst : metrics.FirstByte)
    (hpast : metrics.PastHandshake) : metrics.ttfbStarted = true ↔ metrics.OwnHandshake := by
  obtain ⟨⟨hdns, hconnect, htls⟩, hdns', hconnect', htls'⟩ := hpast
  have hfirst' : 0 ≤ metrics.response.ttfbMs := hfirst
  have htimeout : metrics.h3HandshakeTimeout = false := by
    simp [h3HandshakeTimeout, Int.not_lt.mpr hfirst']
  have hstarted : metrics.ttfbStarted = true ↔
      metrics.connectionReused = false ∧ 0 ≤ metrics.response.connectMs ∧ 0 ≤ metrics.response.tlsMs := by
    simp [ttfbStarted, tlsStarted, tlsFailed, connectStarted, connectFailed, dnsFailed, htimeout, hdns,
      hconnect, htls, hdns', hconnect', htls', hfirst', and_assoc]
  rw [hstarted]
  exact ⟨fun h => ⟨h.1, h.2.1, h.2.2⟩, fun h => ⟨h.fresh, h.connect, h.tls⟩⟩

/-! ### What the collector counts -/

/-- What a run of reports leaves in the last stages. -/
structure Counted (events : List RequestMetrics) (snapshot : MetricsSnapshot) : Prop where
  samples_eq : snapshot.ttfb.samples = events.countP (CountsFirstByte ·)
  succeeded_eq : snapshot.ttfb.succeeded = events.countP (CountsFirstByte ·)
  transfer_eq : snapshot.transfer.started = events.countP (·.FirstByte)

theorem Counted.reportRequest {events : List RequestMetrics} {s : State} (h : Counted events s.snapshot)
    (metrics : RequestMetrics) : Counted (events ++ [metrics]) (reportRequest s metrics).snapshot := by
  have hcounts : List.countP (CountsFirstByte ·) [metrics] =
      if metrics.ttfbStarted = true ∧ 0 ≤ metrics.response.ttfbMs then 1 else 0 := by
    rw [List.countP_singleton]
    simp only [decide_eq_true_eq]
    rfl
  have hfirst : List.countP (·.FirstByte) [metrics] = if 0 ≤ metrics.response.ttfbMs then 1 else 0 := by
    rw [List.countP_singleton]
    simp only [decide_eq_true_eq]
    rfl
  have httfb : (Monitor.reportRequest s metrics).snapshot.ttfb =
      if metrics.ttfbStarted then
        updateStage s.snapshot.ttfb true (!metrics.ttfbFailed) metrics.ttfbFailed metrics.response.ttfbMs
      else s.snapshot.ttfb := rfl
  have htransfer : (Monitor.reportRequest s metrics).snapshot.transfer =
      if metrics.transferStarted then
        updateStage s.snapshot.transfer true metrics.succeeded (!metrics.succeeded) metrics.transferMs
      else s.snapshot.transfer := rfl
  refine ⟨?_, ?_, ?_⟩
  · rw [List.countP_append, hcounts, ← h.samples_eq, httfb]
    by_cases hstarted : metrics.ttfbStarted = true
    · rw [if_pos hstarted, samples_updateStage]
      split_ifs <;> simp_all
    · rw [if_neg hstarted, if_neg fun hboth => hstarted hboth.1, Nat.add_zero]
  · rw [List.countP_append, hcounts, ← h.succeeded_eq, httfb]
    by_cases hstarted : metrics.ttfbStarted = true
    · rw [if_pos hstarted, succeeded_updateStage]
      unfold ttfbFailed
      split_ifs <;> simp_all
    · rw [if_neg hstarted, if_neg fun hboth => hstarted hboth.1, Nat.add_zero]
  · rw [List.countP_append, hfirst, ← h.transfer_eq, htransfer]
    unfold transferStarted
    by_cases hbyte : 0 ≤ metrics.response.ttfbMs
    · rw [if_pos (decide_eq_true hbyte), if_pos hbyte, started_updateStage, if_pos rfl]
    · rw [if_neg (by simpa using hbyte), if_neg hbyte, Nat.add_zero]

theorem counted_reported (maxEvents : ℕ) (events : List RequestMetrics) :
    Counted events (reported maxEvents events).snapshot := by
  induction events using List.reverseRecOn with
  | nil => exact ⟨rfl, rfl, rfl⟩
  | append_singleton events metrics ih =>
    rw [reported_append]
    exact ih.reportRequest metrics

/-- As many first bytes are counted as there are exactly if each is. -/
theorem countP_eq_iff (events : List RequestMetrics) :
    events.countP (CountsFirstByte ·) = events.countP (·.FirstByte) ↔
      ∀ metrics ∈ events, metrics.FirstByte → metrics.ttfbStarted = true := by
  have hfilter : events.countP (CountsFirstByte ·) =
      (events.filter (·.FirstByte)).countP (·.ttfbStarted) := by
    rw [List.countP_filter]
    refine List.countP_congr fun metrics _ => ?_
    rw [Bool.and_eq_true_iff, decide_eq_true_iff, decide_eq_true_iff]
    rfl
  have hlength : events.countP (·.FirstByte) = (events.filter (·.FirstByte)).length :=
    List.countP_eq_length_filter
  rw [hfilter, hlength, List.countP_eq_length]
  simp only [List.mem_filter, decide_eq_true_eq, and_imp]

/-- **No first byte is dropped** from a sequence of reports exactly if every one of them comes over a
connection that was made for its request, with a time for each step of that. -/
theorem funnelKept_iff (maxEvents : ℕ) (events : List RequestMetrics)
    (hpast : ∀ metrics ∈ events, metrics.FirstByte → metrics.PastHandshake) :
    FunnelKept events (reported maxEvents events).currentSnapshot ↔
      ∀ metrics ∈ events, metrics.FirstByte → metrics.OwnHandshake := by
  have hcounted := counted_reported maxEvents events
  have hkept : FunnelKept events (reported maxEvents events).currentSnapshot ↔
      events.countP (CountsFirstByte ·) = events.countP (·.FirstByte) := by
    constructor
    · intro h
      exact hcounted.samples_eq.symm.trans h.samples_eq
    · intro h
      exact ⟨hcounted.samples_eq.trans h, hcounted.succeeded_eq.trans h,
        hcounted.transfer_eq.trans (h.symm.trans hcounted.succeeded_eq.symm)⟩
  rw [hkept, countP_eq_iff]
  constructor
  · intro hall metrics hmem hfirst
    exact (ttfbStarted_iff hfirst (hpast metrics hmem hfirst)).mp (hall metrics hmem hfirst)
  · intro hall metrics hmem hfirst
    exact (ttfbStarted_iff hfirst (hpast metrics hmem hfirst)).mpr (hall metrics hmem hfirst)

/-- A request over HTTP/3 on a connection that was there already. -/
def reusedMetrics : RequestMetrics :=
  { response :=
      { protocol := .http3, dnsMs := 1, connectMs := 2, tlsMs := 5, ttfbMs := 8, totalMs := 20 }
    attempts := 2
    connectionReused := true
    cacheHit := true }

/-- Its first byte is dropped, and its transfer is not. -/
theorem funnelKept_reused : reusedMetrics.PastHandshake ∧
    (reported 4 [reusedMetrics]).currentSnapshot.transfer.started = 1 ∧
    ¬ FunnelKept [reusedMetrics] (reported 4 [reusedMetrics]).currentSnapshot := by
  refine ⟨⟨by decide +kernel, by decide +kernel⟩, by decide +kernel, fun h => ?_⟩
  have hsamples : (reported 4 [reusedMetrics]).currentSnapshot.ttfb.samples = 0 := by decide +kernel
  have hone : [reusedMetrics].countP (·.FirstByte) = 1 := by decide +kernel
  rw [h.samples_eq, hone] at hsamples
  cases hsamples

/-- The same request on a new connection. -/
theorem funnelKept_fresh :
    FunnelKept [{ reusedMetrics with connectionReused := false }]
        (reported 4 [{ reusedMetrics with connectionReused := false }]).currentSnapshot ↔
      ∀ metrics ∈ [{ reusedMetrics with connectionReused := false }],
        metrics.FirstByte → metrics.OwnHandshake :=
  funnelKept_iff 4 [{ reusedMetrics with connectionReused := false }] (by
    intro metrics hmem _
    obtain rfl := List.mem_singleton.mp hmem
    exact ⟨by decide +kernel, by decide +kernel⟩)

end Monitor

end AsterNet
