import AsterNet.Client.Diagnostics
import AsterNet.Monitor.Equiv.Conservation

/-!
# The diagnosis is read as what it says

* `reads_dumpDiag`: the text of `Client::dump_diag` is one JSON document, in which a reader finds every number
  of the parts of the client.
-/

namespace AsterNet

open ByteString Json

/-! ### Texts -/

theorem ascii_brace : ascii "\x7b" = [123] := by decide

theorem ascii_unbrace : ascii "\x7d" = [125] := by decide

theorem ascii_comma : ascii "," = [44] := by decide

theorem key_append (name : String) (t : Bytes) : key name ++ t = 34 :: (ascii name ++ 34 :: 58 :: t) := by
  have hquote : ascii "\"" = [34] := by decide
  have hcolon : ascii "\":" = [34, 58] := by decide
  simp [key, hquote, hcolon]

/-! ### The resolver, the pool and the prober -/

/-- What the resolver says of itself. -/
def Dns.document (s : Dns.State) : Value :=
  .object
    [("entries".toList, .int s.cache.entries.length), ("health".toList, .int s.health.entries.length),
      ("network_epoch".toList, .int s.lastNetworkEpoch)]

theorem Dns.reads_dump (s : Dns.State) : Reads (Dns.document s) (Dns.dump s) := by
  have htext : Dns.dump s = objectText
      [(ascii "entries", decimal s.cache.entries.length), (ascii "health", decimal s.health.entries.length),
        (ascii "network_epoch", decimal s.lastNetworkEpoch)] := by
    unfold Dns.dump
    simp only [objectText, separate, memberText, List.map_cons, List.map_nil, List.append_assoc,
      List.cons_append, List.nil_append, key_append, ascii_brace, ascii_unbrace, ascii_comma]
  rw [htext]
  refine reads_object ?_
  repeat' first | exact List.Forall₂.nil | refine List.Forall₂.cons ?_ ?_
  all_goals exact readsMember_of_plain (by decide) (reads_nat _)

/-- What the pool says of itself. -/
def ConnectionPool.document (s : ConnectionPool.State) : Value :=
  .object
    [("origins".toList, .int s.entries.entries.length), ("active_leases".toList, .int s.leases.entries.length),
      ("prefetches".toList, .int s.prefetches), ("migrations".toList, .int s.migrations),
      ("evictions".toList, .int s.evictions), ("last_prefetch_result".toList, .int s.lastPrefetchResult.code),
      ("last_migration_result".toList, .int s.lastMigrationResult.code),
      ("network_epoch".toList, .int s.networkEpoch)]

theorem ConnectionPool.reads_dump (s : ConnectionPool.State) :
    Reads (ConnectionPool.document s) (ConnectionPool.dump s) := by
  have htext : ConnectionPool.dump s = objectText
      [(ascii "origins", decimal s.entries.entries.length),
        (ascii "active_leases", decimal s.leases.entries.length), (ascii "prefetches", decimal s.prefetches),
        (ascii "migrations", decimal s.migrations), (ascii "evictions", decimal s.evictions),
        (ascii "last_prefetch_result", intText s.lastPrefetchResult.code),
        (ascii "last_migration_result", intText s.lastMigrationResult.code),
        (ascii "network_epoch", decimal s.networkEpoch)] := by
    unfold ConnectionPool.dump
    simp only [ConnectionPool.snapshot, objectText, separate, memberText, List.map_cons, List.map_nil, List.append_assoc,
      List.cons_append, List.nil_append, key_append, ascii_brace, ascii_unbrace, ascii_comma]
  rw [htext]
  refine reads_object ?_
  repeat' first | exact List.Forall₂.nil | refine List.Forall₂.cons ?_ ?_
  all_goals with_reducible first
    | exact readsMember_of_plain (by decide) (reads_nat _)
    | exact readsMember_of_plain (by decide) (reads_int _)

/-- What the prober says of itself. -/
def Prober.document (s : Prober.State) : Value :=
  .object
    [("score".toList, .int s.snapshot.score), ("quality".toList, .int s.snapshot.quality.code),
      ("samples".toList, .int s.snapshot.samples), ("probe_count".toList, .int s.snapshot.probeCount),
      ("success_samples".toList, .int s.snapshot.successSamples),
      ("failure_samples".toList, .int s.snapshot.failureSamples),
      ("failures".toList, .int s.snapshot.consecutiveFailures),
      ("total_failures".toList, .int s.snapshot.totalFailures),
      ("loss_permil".toList, .int s.snapshot.lossPermil),
      ("smoothed_rtt_ms".toList, .int s.snapshot.smoothedRttMs),
      ("last_probe_ms".toList, .int s.snapshot.lastProbeMs),
      ("last_success_ms".toList, .int s.snapshot.lastSuccessMs),
      ("last_failure_ms".toList, .int s.snapshot.lastFailureMs),
      ("last_quality_change_ms".toList, .int s.snapshot.lastQualityChangeMs),
      ("last_sample_ms".toList, .int s.snapshot.lastSampleMs), ("network".toList, .int s.snapshot.network.code),
      ("network_epoch".toList, .int s.snapshot.networkEpoch)]

theorem Prober.reads_dump (s : Prober.State) : Reads (Prober.document s) (Prober.dump s) := by
  -- the text is that of an object with these members
  have htext : Prober.dump s = objectText
      [(ascii "score", intText s.snapshot.score), (ascii "quality", intText s.snapshot.quality.code),
        (ascii "samples", decimal s.snapshot.samples), (ascii "probe_count", decimal s.snapshot.probeCount),
        (ascii "success_samples", decimal s.snapshot.successSamples),
        (ascii "failure_samples", decimal s.snapshot.failureSamples),
        (ascii "failures", decimal s.snapshot.consecutiveFailures),
        (ascii "total_failures", decimal s.snapshot.totalFailures),
        (ascii "loss_permil", intText s.snapshot.lossPermil),
        (ascii "smoothed_rtt_ms", intText s.snapshot.smoothedRttMs),
        (ascii "last_probe_ms", intText s.snapshot.lastProbeMs),
        (ascii "last_success_ms", intText s.snapshot.lastSuccessMs),
        (ascii "last_failure_ms", intText s.snapshot.lastFailureMs),
        (ascii "last_quality_change_ms", intText s.snapshot.lastQualityChangeMs),
        (ascii "last_sample_ms", intText s.snapshot.lastSampleMs),
        (ascii "network", intText s.snapshot.network.code),
        (ascii "network_epoch", decimal s.snapshot.networkEpoch)] := by
    unfold Prober.dump
    simp only [objectText, separate, memberText, List.map_cons, List.map_nil, List.append_assoc,
      List.cons_append, List.nil_append, key_append, ascii_brace, ascii_unbrace, ascii_comma]
  rw [htext]
  refine reads_object ?_
  -- each of them is a number
  repeat' first | exact List.Forall₂.nil | refine List.Forall₂.cons ?_ ?_
  all_goals with_reducible first
    | exact readsMember_of_plain (by decide) (reads_nat _)
    | exact readsMember_of_plain (by decide) (reads_int _)

/-! ### The metrics -/

namespace Monitor

open Utf8

theorem reads_successRate {stage : StageStats} (h : stage.started ≠ 0) :
    Reads (.number (chars (Double.streamText stage.successRate))) (Double.streamText stage.successRate) := by
  refine Double.reads_streamText ?_
  unfold StageStats.successRate
  rw [if_neg h]
  exact Double.finite_quotient stage.succeeded h

example : Double.streamText (StageStats.successRate { started := 1, succeeded := 1 }) = ascii "1" := by
  decide +kernel

/-- What a stage says of itself. -/
def stageDocument (stage : StageStats) : Value :=
  .object
    [("started".toList, .int stage.started), ("succeeded".toList, .int stage.succeeded),
      ("failed".toList, .int stage.failed),
      ("success_rate".toList,
        if stage.started = 0 then .int (-1) else .number (chars (Double.streamText stage.successRate))),
      ("avg_ms".toList, .int stage.averageMs), ("min_ms".toList, .int stage.minMs),
      ("max_ms".toList, .int stage.maxMs)]

theorem reads_stageJson (stage : StageStats) :
    Reads (stageDocument stage) (stageJson stage) := by
  have htext : stageJson stage = objectText
      [(ascii "started", decimal stage.started), (ascii "succeeded", decimal stage.succeeded),
        (ascii "failed", decimal stage.failed),
        (ascii "success_rate",
          if stage.started = 0 then intText (-1) else Double.streamText stage.successRate),
        (ascii "avg_ms", intText stage.averageMs), (ascii "min_ms", intText stage.minMs),
        (ascii "max_ms", intText stage.maxMs)] := by
    unfold stageJson
    simp only [objectText, separate, memberText, List.map_cons, List.map_nil, List.append_assoc,
      List.cons_append, List.nil_append, key_append, ascii_brace, ascii_unbrace, ascii_comma]
  have hrate : Reads (if stage.started = 0 then .int (-1) else .number (chars (Double.streamText stage.successRate)))
      (if stage.started = 0 then intText (-1) else Double.streamText stage.successRate) := by
    split_ifs with h
    · exact reads_int (-1)
    · exact reads_successRate h
  rw [htext]
  refine reads_object ?_
  repeat' first | exact List.Forall₂.nil | refine List.Forall₂.cons ?_ ?_
  all_goals with_reducible first
    | exact readsMember_of_plain (by decide) (reads_nat _)
    | exact readsMember_of_plain (by decide) (reads_int _)
    | exact readsMember_of_plain (by decide) hrate

theorem forall_lt_of_all {n : UInt8} {s : Bytes} (h : s.all (· < n) = true) : ∀ b ∈ s, b < n := by
  simpa using h

/-- An ASCII byte is read back from its escape. -/
theorem readChar_escapeByte : ∀ b : UInt8, b < 0x80 →
    JsonString.readChar (chars (escapeByte b)) = some (Char.ofNat b.toNat, []) ∧
      ∀ c ∈ escapeByte b, c < 0x80 := by
  have hall : ∀ b : UInt8, b < 0x80 →
      JsonString.readChar (chars (escapeByte b)) = some (Char.ofNat b.toNat, []) ∧
        (escapeByte b).all (· < 0x80) = true := by
    decide +kernel
  exact fun b hb => ⟨(hall b hb).1, forall_lt_of_all (hall b hb).2⟩

theorem decode_escapeJson {s : Bytes} (hs : ∀ b ∈ s, b < 0x80) :
    JsonString.decode (escapeJson s) = some (chars s) :=
  decode_flatMap readChar_escapeByte hs

/-- What the table of the failure stages says. -/
def failureStagesDocument (stages : List (Σ _ : Bytes, ℕ)) : Value :=
  .object (stages.map fun entry => (chars entry.1, .int entry.2))

theorem reads_failureStagesJson {stages : List (Σ _ : Bytes, ℕ)} (hs : ∀ e ∈ stages, ∀ b ∈ e.1, b < 0x80) :
    Reads (failureStagesDocument stages) (ascii "\x7b" ++ failureStagesJson stages ++ ascii "\x7d") := by
  have htext : ascii "\x7b" ++ failureStagesJson stages ++ ascii "\x7d" =
      objectText (stages.map fun entry => (escapeJson entry.1, decimal entry.2)) := by
    have hquote : ascii "\"" = [34] := by decide
    have hcolon : ascii "\":" = [34, 58] := by decide
    have hloop := foldl_separate (fun entry : Σ _ : Bytes, ℕ => memberText (escapeJson entry.1, decimal entry.2))
      stages
    unfold failureStagesJson objectText
    rw [List.map_map, Function.comp_def, ← hloop, ascii_brace, ascii_unbrace]
    simp only [memberText, hquote, hcolon, ascii_comma, List.append_assoc, List.cons_append, List.nil_append]
  rw [htext]
  refine reads_object ?_
  rw [List.forall₂_map_left_iff, List.forall₂_map_right_iff, List.forall₂_same]
  exact fun e he => ⟨decode_escapeJson (hs e he), reads_nat e.2⟩

/-- What the stages of a snapshot say. -/
def stagesDocument (snapshot : MetricsSnapshot) : Value :=
  .object
    [("dns".toList, stageDocument snapshot.dns), ("connect".toList, stageDocument snapshot.connect),
      ("tls".toList, stageDocument snapshot.tls), ("ttfb".toList, stageDocument snapshot.ttfb),
      ("transfer".toList, stageDocument snapshot.transfer),
      ("total".toList, stageDocument snapshot.total)]

/-- What a snapshot says. -/
def snapshotDocument (snapshot : MetricsSnapshot) : Value :=
  .object
    [("events".toList, .int snapshot.events),
      ("metrics".toList, .object
        [("requests".toList, .int snapshot.requests), ("success".toList, .int snapshot.success),
          ("failure".toList, .int snapshot.failure), ("degraded".toList, .int snapshot.degraded),
          ("deduplicated".toList, .int snapshot.deduplicated),
          ("connection_reused".toList, .int snapshot.connectionReused),
          ("cache_hit".toList, .int snapshot.cacheHit), ("attempts".toList, .int snapshot.attempts),
          ("avg_total_ms".toList, .int snapshot.avgTotalMs), ("max_total_ms".toList, .int snapshot.maxTotalMs),
          ("stages".toList, stagesDocument snapshot),
          ("failure_stages".toList, failureStagesDocument (sortedStages snapshot.failureStages))])]

/-- The text of the stages, with their braces. -/
def stagesText (snapshot : MetricsSnapshot) : Bytes :=
  objectText
    [(ascii "dns", stageJson snapshot.dns), (ascii "connect", stageJson snapshot.connect),
      (ascii "tls", stageJson snapshot.tls), (ascii "ttfb", stageJson snapshot.ttfb),
      (ascii "transfer", stageJson snapshot.transfer),
      (ascii "total", stageJson snapshot.total)]

theorem reads_stagesText (snapshot : MetricsSnapshot) :
    Reads (stagesDocument snapshot) (stagesText snapshot) := by
  refine reads_object ?_
  repeat' first | exact List.Forall₂.nil | refine List.Forall₂.cons ?_ ?_
  all_goals exact readsMember_of_plain (by decide) (reads_stageJson _)

/-- The text of the failure stages, with their braces. -/
def failuresText (snapshot : MetricsSnapshot) : Bytes :=
  ascii "\x7b" ++ failureStagesJson (sortedStages snapshot.failureStages) ++ ascii "\x7d"

theorem snapshotJson_eq (snapshot : MetricsSnapshot) : snapshotJson snapshot = objectText
    [(ascii "events", decimal snapshot.events),
      (ascii "metrics", objectText
        [(ascii "requests", decimal snapshot.requests), (ascii "success", decimal snapshot.success),
          (ascii "failure", decimal snapshot.failure), (ascii "degraded", decimal snapshot.degraded),
          (ascii "deduplicated", decimal snapshot.deduplicated),
          (ascii "connection_reused", decimal snapshot.connectionReused),
          (ascii "cache_hit", decimal snapshot.cacheHit), (ascii "attempts", decimal snapshot.attempts),
          (ascii "avg_total_ms", intText snapshot.avgTotalMs),
          (ascii "max_total_ms", intText snapshot.maxTotalMs), (ascii "stages", stagesText snapshot),
          (ascii "failure_stages", failuresText snapshot)])] := by
  have hbraces : ascii "\x7d\x7d" = [125, 125] := by decide
  unfold snapshotJson stagesText failuresText
  simp only [objectText, separate, memberText, List.map_cons, List.map_nil, List.append_assoc,
    List.cons_append, List.nil_append, key_append, ascii_brace, ascii_unbrace, ascii_comma, hbraces]

/-- The stages of a table are ASCII. -/
def AsciiStages (stages : AList fun _ : Bytes => ℕ) : Prop := ∀ key ∈ stages, ∀ b ∈ key, b < 0x80

theorem reads_snapshotJson {snapshot : MetricsSnapshot} (h : AsciiStages snapshot.failureStages) :
    Reads (snapshotDocument snapshot) (snapshotJson snapshot) := by
  have hfailures : Reads (failureStagesDocument (sortedStages snapshot.failureStages)) (failuresText snapshot) := by
    refine reads_failureStagesJson fun e he => h e.1 ?_
    exact List.mem_keys_of_mem ((List.mergeSort_perm _ _).mem_iff.mp he)
  rw [snapshotJson_eq]
  refine reads_object (.cons (readsMember_of_plain (by decide) (reads_nat _))
    (.cons (readsMember_of_plain (by decide) (reads_object ?_)) .nil))
  repeat' first | exact List.Forall₂.nil | refine List.Forall₂.cons ?_ ?_
  all_goals with_reducible first
    | exact readsMember_of_plain (by decide) (reads_nat _)
    | exact readsMember_of_plain (by decide) (reads_int _)
    | exact readsMember_of_plain (by decide) (reads_stagesText snapshot)
    | exact readsMember_of_plain (by decide) hfailures

/-! ### The stages that reports name -/

theorem AsciiStages.insert {stages : AList fun _ : Bytes => ℕ} (h : AsciiStages stages) {key : Bytes}
    (hkey : ∀ b ∈ key, b < 0x80) (n : ℕ) : AsciiStages (stages.insert key n) := by
  intro key' hmem
  rcases (AList.mem_insert _).mp hmem with rfl | hmem
  · exact hkey
  · exact h key' hmem

theorem AsciiStages.tallyFailureStage {stages : AList fun _ : Bytes => ℕ} (h : AsciiStages stages) {stage : Bytes}
    (hstage : ∀ b ∈ stage, b < 0x80) : AsciiStages (tallyFailureStage stages stage) := by
  have hincrement : ∀ key : Bytes, (∀ b ∈ key, b < 0x80) → AsciiStages (UnorderedMap.increment key stages) := by
    intro key hkey key' hmem
    rcases UnorderedMap.mem_increment.mp hmem with rfl | hmem
    · exact hkey
    · exact h key' hmem
  have hnormalized : ∀ b ∈ (if 64 < stage.length then stage.take 64 else stage), b < 0x80 := by
    intro b hb
    split_ifs at hb
    · exact hstage b (List.mem_of_mem_take hb)
    · exact hstage b hb
  unfold Monitor.tallyFailureStage
  by_cases hempty : stage = []
  · rw [if_pos hempty]
    exact h
  rw [if_neg hempty]
  dsimp only
  set normalized := if 64 < stage.length then stage.take 64 else stage
  split_ifs
  · exact hincrement normalized hnormalized
  · exact hincrement (ascii "other") (forall_lt_of_all (by decide))
  · exact h.insert hnormalized 1

theorem ascii_talliedStage {metrics : RequestMetrics} (h : ∀ b ∈ metrics.failureStage, b < 0x80) :
    ∀ b ∈ metrics.talliedStage, b < 0x80 := by
  unfold RequestMetrics.talliedStage
  split_ifs
  · exact h
  · simp
  · exact forall_lt_of_all (by decide)

/-- The tables that reports of ASCII stages lead to. -/
theorem asciiStages_reported (maxEvents : ℕ) {events : List RequestMetrics}
    (h : ∀ metrics ∈ events, ∀ b ∈ metrics.failureStage, b < 0x80) :
    AsciiStages (reported maxEvents events).snapshot.failureStages := by
  induction events using List.reverseRecOn with
  | nil =>
    intro key hkey
    simp [reported, State.new] at hkey
  | append_singleton events metrics ih =>
    rw [reported_append]
    have hbefore := ih fun m hm => h m (List.mem_append_left _ hm)
    exact hbefore.tallyFailureStage (ascii_talliedStage (h metrics (by simp)))

end Monitor

/-! ### The client -/

namespace Client

open Monitor

/-- What a client says of itself, when the dump of the metrics is `metrics`. -/
def document (parts : Parts) (metrics : Value) : Value :=
  .object
    [("network_epoch".toList, .int parts.networkEpoch), ("dns".toList, Dns.document parts.resolver),
      ("connections".toList, ConnectionPool.document parts.pool),
      ("quality".toList, Prober.document parts.prober), ("metrics".toList, metrics)]

/-- What `dump_diag` says. -/
def diagnosis (active threw : Bool) (parts : Parts) : Value :=
  if active then .object []
  else document parts (if threw then .object [] else snapshotDocument parts.metrics.currentSnapshot)

theorem reads_empty : Reads (.object []) (ascii "\x7b\x7d") := by
  have htext : ascii "\x7b\x7d" = objectText [] := by decide
  rw [htext]
  exact reads_object .nil

theorem reads_dumpDiag (active threw : Bool) {parts : Parts} (h : AsciiStages parts.metrics.snapshot.failureStages) :
    Reads (diagnosis active threw parts) (dumpDiag active threw parts) := by
  unfold diagnosis dumpDiag
  -- a client that is being destroyed says nothing
  cases active with
  | true => exact reads_empty
  | false =>
    -- a collector that throws leaves an empty object behind
    have hmetrics : Reads
        (if threw then .object [] else snapshotDocument parts.metrics.currentSnapshot)
        (if threw then ascii "\x7b\x7d" else Monitor.dump parts.metrics) := by
      split_ifs
      · exact reads_empty
      · exact reads_snapshotJson h
    dsimp only [Bool.false_eq_true, if_false]
    generalize (if threw then ascii "\x7b\x7d" else Monitor.dump parts.metrics) = text at hmetrics ⊢
    have htext : ascii "\x7b" ++ key "network_epoch" ++ decimal parts.networkEpoch
        ++ ascii "," ++ key "dns" ++ Dns.dump parts.resolver
        ++ ascii "," ++ key "connections" ++ ConnectionPool.dump parts.pool
        ++ ascii "," ++ key "quality" ++ Prober.dump parts.prober
        ++ ascii "," ++ key "metrics" ++ text ++ ascii "\x7d" = objectText
        [(ascii "network_epoch", decimal parts.networkEpoch), (ascii "dns", Dns.dump parts.resolver),
          (ascii "connections", ConnectionPool.dump parts.pool), (ascii "quality", Prober.dump parts.prober),
          (ascii "metrics", text)] := by
      simp only [objectText, separate, memberText, List.map_cons, List.map_nil, List.append_assoc,
        List.cons_append, List.nil_append, key_append, ascii_brace, ascii_unbrace, ascii_comma]
    rw [htext]
    exact reads_object
      (.cons (readsMember_of_plain (by decide) (reads_nat _))
        (.cons (readsMember_of_plain (by decide) (Dns.reads_dump _))
          (.cons (readsMember_of_plain (by decide) (ConnectionPool.reads_dump _))
            (.cons (readsMember_of_plain (by decide) (Prober.reads_dump _))
              (.cons (readsMember_of_plain (by decide) hmetrics) .nil)))))

end Client

/-! ### The buffer and the binding -/

namespace Abi

/-- A buffer that is large enough holds the whole text, as a C string. -/
theorem copyOut_of_lt {t : Bytes} {outCapacity : ℕ} (h : t.length < outCapacity - 1) :
    copyOut t outCapacity = (t.length, t ++ [0]) := by
  unfold copyOut
  rw [if_pos h]
  dsimp only
  rw [List.take_length]

/-- Another one is filled up. -/
theorem copyOut_of_le {t : Bytes} {outCapacity : ℕ} (h : outCapacity - 1 ≤ t.length) :
    (copyOut t outCapacity).1 = outCapacity - 1 := by
  unfold copyOut
  rw [if_neg (Nat.not_lt.mpr h)]

end Abi

namespace Jni

theorem cStr_terminated {t : Bytes} (h : (0 : UInt8) ∉ t) : cStr (t ++ [0]) = t := by
  unfold cStr
  rw [List.takeWhile_append_of_pos fun c hc => by simpa using ne_of_mem_of_not_mem hc h]
  simp

/-- What the binding gives out for an answer: never a text that was cut. -/
def told : Abi.Answer → Value → Value
  | .refused, _ => .object []
  | .text diagnostics, v =>
    if diagnostics.length < dumpCapacity - 1 then v
    else .object [("error".toList, .string "TRUNCATED".toList)]
  | .threw, _ => .object [("error".toList, .string "OUT_OF_MEMORY".toList)]

/-- The text of an error. -/
theorem reads_error {name : String} (hname : name.toList.all isPlain = true) :
    Reads (.object [("error".toList, .string name.toList)])
      (objectText [(ascii "error", 34 :: (ascii name ++ [34]))]) :=
  reads_object (.cons (readsMember_of_plain (by decide) (reads_string (decode_ascii hname))) .nil)

theorem read_nativeDumpDiagnostics {v : Value} (answer : Abi.Answer)
    (h : ∀ diagnostics, answer = .text diagnostics → Reads v diagnostics) :
    read (nativeDumpDiagnostics answer) = some (told answer v) := by
  cases answer with
  | refused =>
    rw [told]
    exact read_of_reads Client.reads_empty
  | threw =>
    have htext : nativeDumpDiagnostics .threw =
        objectText [(ascii "error", 34 :: (ascii "OUT_OF_MEMORY" ++ [34]))] := by
      decide +kernel
    rw [htext, told]
    exact read_of_reads (reads_error (by decide))
  | text diagnostics =>
    have hreads := h diagnostics rfl
    have hpos : diagnostics ≠ [] := by
      rintro rfl
      obtain ⟨cs, heq, hcs⟩ := hreads
      obtain ⟨c, cs, rfl⟩ := List.exists_cons_of_ne_nil hcs.ne_nil
      rw [Utf8.encode_cons] at heq
      exact String.utf8EncodeChar_ne_nil (List.append_eq_nil_iff.mp heq.symm).1
    have hcapacity : dumpCapacity ≠ 0 := by decide
    unfold nativeDumpDiagnostics Abi.dumpDiagnostics told
    rw [if_neg hcapacity]
    dsimp only
    by_cases hlt : diagnostics.length < dumpCapacity - 1
    · rw [Abi.copyOut_of_lt hlt, if_neg (by simpa using hpos), if_neg (Nat.not_le.mpr hlt), if_pos hlt]
      dsimp only
      rw [cStr_terminated hreads.zero_notMem]
      exact read_of_reads hreads
    · have htext : ascii "\x7b\"error\":\"TRUNCATED\"\x7d" =
          objectText [(ascii "error", 34 :: (ascii "TRUNCATED" ++ [34]))] := by
        decide +kernel
      rw [Abi.copyOut_of_le (Nat.le_of_not_lt hlt), if_neg (by decide), if_pos (le_refl _), if_neg hlt, htext]
      exact read_of_reads (reads_error (by decide))

end Jni

namespace Client

open Monitor

/-- **The diagnosis round trip**: what the Android binding gives out for a client whose metrics come from any
reports is a JSON text, in which a reader finds all that the client says of itself, or that the text did not
fit.  Nothing else is left of a text that does not fit. -/
theorem read_diagnosis {maxEvents : ℕ} {events : List RequestMetrics}
    (hascii : ∀ metrics ∈ events, ∀ b ∈ metrics.failureStage, b < 0x80) (active threw : Bool) {parts : Parts}
    (hmetrics : parts.metrics = reported maxEvents events) :
    read (dumpDiag active threw parts) = some (diagnosis active threw parts) ∧
      read (Jni.nativeDumpDiagnostics (.text (dumpDiag active threw parts))) =
        some (Jni.told (.text (dumpDiag active threw parts)) (diagnosis active threw parts)) := by
  have hreads := reads_dumpDiag active threw (hmetrics ▸ asciiStages_reported maxEvents hascii)
  refine ⟨read_of_reads hreads, Jni.read_nativeDumpDiagnostics _ fun diagnostics heq => ?_⟩
  rw [← Abi.Answer.text.inj heq]
  exact hreads

/-- A client after a request that failed to resolve its host, and one that did not. -/
def usedParts : Parts where
  networkEpoch := 3
  resolver := {}
  pool := ConnectionPool.new 8
  prober := {}
  metrics := reported 128 [{ response := { result := .errDns }, failureStage := ascii "dns" }, {}]

theorem read_diagnosis_used :
    read (dumpDiag false false usedParts) = some (diagnosis false false usedParts) ∧
      read (Jni.nativeDumpDiagnostics (.text (dumpDiag false false usedParts))) =
        some (Jni.told (.text (dumpDiag false false usedParts)) (diagnosis false false usedParts)) :=
  read_diagnosis (by simpa using forall_lt_of_all (s := ascii "dns") (by decide)) false false rfl

end Client

end AsterNet
