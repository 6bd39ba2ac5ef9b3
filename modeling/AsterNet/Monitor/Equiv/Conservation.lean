import AsterNet.Monitor.Metrics
import Mathlib.Algebra.Order.Group.Int
import Mathlib.Algebra.Order.Ring.Int

/-!
# What a collector's numbers add up to

`Conserved` ties the numbers of a collector to the events that were reported to it, and
`conserved_reported` proves it of every sequence of reports.  `Inv` is what one report preserves
(`Inv.reportRequest`): for the times of a stage it bounds the sum, from which the bounds of the average
follow, and for the failure stages it knows that the last key is the one for all others.
-/

namespace AsterNet

namespace Monitor

open ByteString

/-- What a stage says of itself. -/
structure StageStats.Consistent (stage : StageStats) : Prop where
  started_eq : stage.started = stage.succeeded + stage.failed
  samples_le : stage.samples ≤ stage.started
  average : 0 < stage.samples →
    0 ≤ stage.minMs ∧ stage.minMs ≤ stage.averageMs ∧ stage.averageMs ≤ stage.maxMs

/-- The six stages. -/
def MetricsSnapshot.stages (snapshot : MetricsSnapshot) : List StageStats :=
  [snapshot.dns, snapshot.connect, snapshot.tls, snapshot.ttfb, snapshot.transfer, snapshot.total]

/-- The events that leave a failure stage. -/
def RequestMetrics.Fails (metrics : RequestMetrics) : Prop :=
  metrics.failureStage ≠ [] ∨ metrics.response.result ≠ .ok

instance decidableFails : DecidablePred RequestMetrics.Fails :=
  fun metrics => inferInstanceAs (Decidable (metrics.failureStage ≠ [] ∨ metrics.response.result ≠ .ok))

/-- A collector's numbers are those of the events reported to it. -/
structure Conserved (maxEvents : ℕ) (events : List RequestMetrics) (s : State) : Prop where
  requests_eq : s.currentSnapshot.requests = events.length
  success_add_failure : s.currentSnapshot.success + s.currentSnapshot.failure = events.length
  stages : ∀ stage ∈ s.currentSnapshot.stages, stage.Consistent
  connect_le : s.currentSnapshot.connect.started ≤ s.currentSnapshot.dns.succeeded
  tls_le : s.currentSnapshot.tls.started ≤ s.currentSnapshot.connect.succeeded
  ttfb_le : s.currentSnapshot.ttfb.started ≤ s.currentSnapshot.tls.succeeded
  failures_eq : UnorderedMap.total s.currentSnapshot.failureStages = events.countP (·.Fails)
  keys_le : s.currentSnapshot.failureStages.keys.length ≤ 33
  recentEvents_eq : s.recentEvents = events.drop (events.length - max maxEvents 1)

/-! ### A stage -/

/-- What every update of a stage preserves. -/
structure StageStats.Inv (stage : StageStats) : Prop where
  started_eq : stage.started = stage.succeeded + stage.failed
  samples_le : stage.samples ≤ stage.started
  min_nonneg : 0 < stage.samples → 0 ≤ stage.minMs
  max_nonneg : 0 ≤ stage.maxMs
  min_mul_le : stage.minMs * stage.samples ≤ stage.totalMs
  le_max_mul : stage.totalMs ≤ stage.maxMs * stage.samples

section

variable {stage : StageStats}

theorem StageStats.inv_new : StageStats.Inv {} where
  started_eq := rfl
  samples_le := le_refl 0
  min_nonneg := fun h => absurd h (by decide)
  max_nonneg := le_refl 0
  min_mul_le := by decide
  le_max_mul := by decide

/-- The average lies between the smallest and the largest time. -/
theorem StageStats.Inv.consistent (h : stage.Inv) : stage.Consistent := by
  refine ⟨h.started_eq, h.samples_le, fun hpos => ?_⟩
  have hmin := h.min_nonneg hpos
  have hsamples : (0 : ℤ) < stage.samples := by exact_mod_cast hpos
  have htotal : 0 ≤ stage.totalMs := le_trans (mul_nonneg hmin hsamples.le) h.min_mul_le
  have haverage : stage.averageMs = stage.totalMs / stage.samples := by
    unfold StageStats.averageMs
    rw [if_neg hpos.ne', Int.tdiv_eq_ediv_of_nonneg htotal]
  rw [haverage]
  refine ⟨hmin, ?_, ?_⟩
  · exact (Int.le_ediv_iff_mul_le hsamples).mpr h.min_mul_le
  · apply Int.ediv_le_of_le_mul hsamples
    exact h.le_max_mul

/-- A measured time, in a stage that has started more often than it was measured. -/
theorem StageStats.Inv.sample (h : stage.Inv) (ms : ℤ) (hlt : stage.samples < stage.started) :
    (stage.sample ms).Inv := by
  unfold StageStats.sample
  by_cases hms : 0 ≤ ms
  · rw [if_pos hms]
    -- the new extremes, and where the new time stands between them
    set lo := if stage.minMs < 0 ∨ ms < stage.minMs then ms else stage.minMs with hlo
    set hi := if stage.maxMs < ms then ms else stage.maxMs with hhi
    have hlo_nonneg : 0 ≤ lo := by
      rw [hlo]
      split_ifs with hcond
      · exact hms
      · omega
    have hlo_ms : lo ≤ ms := by
      rw [hlo]
      split_ifs with hcond
      · exact le_refl ms
      · omega
    have hlo_mul : lo * stage.samples ≤ stage.minMs * stage.samples := by
      rcases Nat.eq_zero_or_pos stage.samples with hzero | hpos
      · simp [hzero]
      · -- a stage that was measured has a smallest time, and the new one is no larger
        have hmin := h.min_nonneg hpos
        have hle : lo ≤ stage.minMs := by
          rw [hlo]
          split_ifs with hcond
          · omega
          · exact le_refl _
        exact mul_le_mul_of_nonneg_right hle (Int.natCast_nonneg _)
    have hhi_ms : ms ≤ hi ∧ stage.maxMs ≤ hi := by
      rw [hhi]
      split_ifs with hcond
      · exact ⟨le_refl ms, hcond.le⟩
      · exact ⟨Int.not_lt.mp hcond, le_refl _⟩
    have hhi_mul : stage.maxMs * stage.samples ≤ hi * stage.samples :=
      mul_le_mul_of_nonneg_right hhi_ms.2 (Int.natCast_nonneg _)
    -- one more sample of at least the smallest time, and at most the largest
    have hmin_le := h.min_mul_le
    have hle_max := h.le_max_mul
    exact
      { started_eq := h.started_eq
        samples_le := hlt
        min_nonneg := fun _ => hlo_nonneg
        max_nonneg := le_trans h.max_nonneg hhi_ms.2
        min_mul_le := by
          show lo * ((stage.samples + 1 : ℕ) : ℤ) ≤ stage.totalMs + ms
          rw [Nat.cast_succ, mul_add, mul_one]
          omega
        le_max_mul := by
          show stage.totalMs + ms ≤ hi * ((stage.samples + 1 : ℕ) : ℤ)
          rw [Nat.cast_succ, mul_add, mul_one]
          omega }
  · rw [if_neg hms]
    exact h

/-- An update of a stage that has started, and succeeded or failed. -/
theorem StageStats.Inv.updateStage (h : stage.Inv) {succeeded failed : Bool} (hone : failed = !succeeded)
    (ms : ℤ) : (updateStage stage true succeeded failed ms).Inv := by
  subst hone
  have hsamples := h.samples_le
  have hstarted := h.started_eq
  apply StageStats.Inv.sample
  · exact
      { started_eq := by
          cases succeeded with
          | false => show stage.started + 1 = stage.succeeded + (stage.failed + 1); omega
          | true => show stage.started + 1 = stage.succeeded + 1 + stage.failed; omega
        samples_le := by show stage.samples ≤ stage.started + 1; omega
        min_nonneg := h.min_nonneg
        max_nonneg := h.max_nonneg
        min_mul_le := h.min_mul_le
        le_max_mul := h.le_max_mul }
  · show stage.samples < stage.started + 1
    omega

@[simp] theorem started_updateStage (started succeeded failed : Bool) (ms : ℤ) :
    (updateStage stage started succeeded failed ms).started =
      if started then stage.started + 1 else stage.started := by
  unfold updateStage StageStats.sample
  split_ifs
  all_goals rfl

@[simp] theorem succeeded_updateStage (started succeeded failed : Bool) (ms : ℤ) :
    (updateStage stage started succeeded failed ms).succeeded =
      if succeeded then stage.succeeded + 1 else stage.succeeded := by
  unfold updateStage StageStats.sample
  split_ifs
  all_goals rfl

@[simp] theorem samples_updateStage (started succeeded failed : Bool) (ms : ℤ) :
    (updateStage stage started succeeded failed ms).samples =
      if 0 ≤ ms then stage.samples + 1 else stage.samples := by
  unfold updateStage StageStats.sample
  split_ifs
  all_goals rfl

end

/-! ### The failure stages -/

/-- A table of failure stages has 32 keys of its own, and one for all others. -/
def Bounded (stages : AList fun _ : Bytes => ℕ) : Prop :=
  stages.keys.length ≤ kMaxFailureStages ∨
    stages.keys.length = kMaxFailureStages + 1 ∧ ascii "other" ∈ stages

section

variable {stages : AList fun _ : Bytes => ℕ}

theorem length_keys_increment_of_mem {k : Bytes} (h : k ∈ stages) :
    (UnorderedMap.increment k stages).keys.length = stages.keys.length := by
  rw [UnorderedMap.length_keys, UnorderedMap.length_keys]
  exact UnorderedMap.length_insert_of_mem h

theorem total_tallyFailureStage (stage : Bytes) :
    UnorderedMap.total (tallyFailureStage stages stage) =
      UnorderedMap.total stages + if stage = [] then 0 else 1 := by
  unfold tallyFailureStage
  by_cases hempty : stage = []
  · rw [if_pos hempty, if_pos hempty, Nat.add_zero]
  rw [if_neg hempty, if_neg hempty]
  dsimp only
  set normalized := if 64 < stage.length then stage.take 64 else stage
  split_ifs with hmem hfull
  · exact UnorderedMap.total_increment _ _
  · exact UnorderedMap.total_increment _ _
  · exact UnorderedMap.total_insert_of_notMem hmem 1

theorem Bounded.tallyFailureStage (h : Bounded stages) (stage : Bytes) :
    Bounded (tallyFailureStage stages stage) := by
  unfold Monitor.tallyFailureStage
  by_cases hempty : stage = []
  · rw [if_pos hempty]
    exact h
  rw [if_neg hempty]
  dsimp only
  set normalized := if 64 < stage.length then stage.take 64 else stage
  by_cases hmem : normalized ∈ stages
  · -- a stage that has its key
    rw [if_pos hmem]
    unfold Bounded
    rw [length_keys_increment_of_mem hmem, UnorderedMap.mem_increment]
    exact h.imp_right fun ⟨hlength, hother⟩ => ⟨hlength, .inr hother⟩
  rw [if_neg hmem]
  by_cases hfull : kMaxFailureStages ≤ stages.keys.length
  · rw [if_pos hfull]
    -- a full table counts under its last key
    by_cases hother : ascii "other" ∈ stages
    · unfold Bounded
      rw [length_keys_increment_of_mem hother, UnorderedMap.mem_increment]
      exact h.imp_right fun ⟨hlength, hother⟩ => ⟨hlength, .inr hother⟩
    · -- the table is full, and gets its last key
      refine .inr ⟨?_, UnorderedMap.mem_increment.mpr (.inl rfl)⟩
      have hlength : stages.keys.length = kMaxFailureStages := by
        rcases h with hle | ⟨-, hmem'⟩
        · omega
        · exact absurd hmem' hother
      rw [← hlength, UnorderedMap.length_keys, UnorderedMap.length_keys]
      exact UnorderedMap.length_insert_of_notMem hother
  · rw [if_neg hfull]
    left
    -- a table with room takes one more key
    have hinsert : (stages.insert normalized 1).keys.length = stages.keys.length + 1 := by
      rw [UnorderedMap.length_keys, UnorderedMap.length_keys]
      exact UnorderedMap.length_insert_of_notMem hmem
    omega

end

/-! ### The events -/

/-- The buffer holds the last events. -/
theorem pushEvent_drop {maxEvents : ℕ} (hpos : 1 ≤ maxEvents) (events : List RequestMetrics)
    (metrics : RequestMetrics) :
    pushEvent maxEvents (events.drop (events.length - maxEvents)) metrics =
      (events ++ [metrics]).drop ((events ++ [metrics]).length - maxEvents) := by
  unfold pushEvent
  rw [List.length_append, List.length_singleton, List.length_drop]
  by_cases hfull : maxEvents ≤ events.length
  · rw [if_pos (by omega), List.tail_drop, List.drop_append_of_le_length (by omega)]
    have hindex : events.length - maxEvents + 1 = events.length + 1 - maxEvents := by omega
    rw [hindex]
  · rw [if_neg (by omega), List.drop_append_of_le_length (by omega)]
    have hindex : events.length - maxEvents = events.length + 1 - maxEvents := by omega
    rw [hindex]

/-! ### A report -/

/-- What every report preserves. -/
structure Inv (maxEvents : ℕ) (events : List RequestMetrics) (s : State) : Prop where
  maxEvents_eq : s.maxEvents = max maxEvents 1
  requests_eq : s.snapshot.requests = events.length
  success_add_failure : s.snapshot.success + s.snapshot.failure = events.length
  stages : ∀ stage ∈ s.snapshot.stages, stage.Inv
  connect_le : s.snapshot.connect.started ≤ s.snapshot.dns.succeeded
  tls_le : s.snapshot.tls.started ≤ s.snapshot.connect.succeeded
  ttfb_le : s.snapshot.ttfb.started ≤ s.snapshot.tls.succeeded
  failures_eq : UnorderedMap.total s.snapshot.failureStages = events.countP (·.Fails)
  bounded : Bounded s.snapshot.failureStages
  events_eq : s.events = events.drop (events.length - max maxEvents 1)

section

variable {maxEvents : ℕ} {events : List RequestMetrics} {s : State}

theorem inv_new (maxEvents : ℕ) : Inv maxEvents [] (State.new maxEvents) where
  maxEvents_eq := by
    show (if maxEvents = 0 then 1 else maxEvents) = _
    split_ifs <;> omega
  requests_eq := rfl
  success_add_failure := rfl
  stages := by
    intro stage hstage
    have hnew : stage = {} := by simpa [MetricsSnapshot.stages, State.new] using hstage
    rw [hnew]
    exact StageStats.inv_new
  connect_le := le_refl 0
  tls_le := le_refl 0
  ttfb_le := le_refl 0
  failures_eq := rfl
  bounded := .inl (Nat.zero_le _)
  events_eq := List.drop_nil.symm

/-- A stage a report reaches, or does not. -/
theorem StageStats.Inv.reach {stage : StageStats} (h : stage.Inv) (reached succeeded failed : Bool)
    (hone : failed = !succeeded) (ms : ℤ) :
    (if reached then Monitor.updateStage stage true succeeded failed ms else stage).Inv := by
  split_ifs
  · exact h.updateStage hone ms
  · exact h

/-- A stage starts only where the stage before it has succeeded. -/
theorem started_le_succeeded {stage next : StageStats} (h : next.started ≤ stage.succeeded)
    (reached succeeded failed reached' succeeded' failed' : Bool)
    (hchain : reached' = true → reached = true ∧ succeeded = true) (ms ms' : ℤ) :
    (if reached' then updateStage next true succeeded' failed' ms' else next).started ≤
      (if reached then updateStage stage true succeeded failed ms else stage).succeeded := by
  cases reached' with
  | true =>
    obtain ⟨rfl, rfl⟩ := hchain rfl
    simp only [if_pos, started_updateStage, succeeded_updateStage]
    omega
  | false =>
    rw [if_neg Bool.false_ne_true]
    cases reached with
    | true =>
      rw [if_pos rfl, succeeded_updateStage]
      split_ifs
      · omega
      · exact h
    | false => exact h

theorem Inv.stages_updateStages (h : Inv maxEvents events s) (metrics : RequestMetrics) :
    ∀ stage ∈ (updateStages metrics (countRequest metrics s.snapshot)).stages, stage.Inv := by
  have hstage : ∀ stage ∈ s.snapshot.stages, stage.Inv := h.stages
  simp only [MetricsSnapshot.stages, List.mem_cons, List.not_mem_nil, or_false, forall_eq_or_imp,
    forall_eq] at hstage ⊢
  obtain ⟨hdns, hconnect, htls, httfb, htransfer, htotal⟩ := hstage
  refine ⟨?_, ?_, ?_, ?_, ?_, ?_⟩
  · exact hdns.updateStage (Bool.not_not _).symm _
  · exact hconnect.reach _ _ _ (Bool.not_not _).symm _
  · exact htls.reach _ _ _ (Bool.not_not _).symm _
  · exact httfb.reach _ _ _ (Bool.not_not _).symm _
  · exact htransfer.reach _ _ _ rfl _
  · exact htotal.updateStage rfl _

/-- A report is tallied exactly if it leaves a failure stage. -/
theorem talliedStage_eq_nil_iff (metrics : RequestMetrics) :
    metrics.talliedStage = [] ↔ ¬ metrics.Fails := by
  unfold RequestMetrics.talliedStage RequestMetrics.Fails
  split_ifs with hstage hok
  · simp [hstage]
  · simp [hstage, hok]
  · have hinternal : ascii "internal" ≠ [] := by decide
    simp [hok, hinternal]

theorem Inv.reportRequest (h : Inv maxEvents events s) (metrics : RequestMetrics) :
    Inv maxEvents (events ++ [metrics]) (reportRequest s metrics) where
  maxEvents_eq := h.maxEvents_eq
  requests_eq := by
    show s.snapshot.requests + 1 = _
    rw [h.requests_eq, List.length_append, List.length_singleton]
  success_add_failure := by
    show (if metrics.response.result = .ok then s.snapshot.success + 1 else s.snapshot.success) +
      (if metrics.response.result = .ok then s.snapshot.failure else s.snapshot.failure + 1) = _
    have hsum := h.success_add_failure
    rw [List.length_append, List.length_singleton]
    split_ifs <;> omega
  stages := h.stages_updateStages metrics
  -- a stage starts only when the one in front of it succeeded
  connect_le := by
    refine started_le_succeeded h.connect_le true (!metrics.dnsFailed) metrics.dnsFailed
      metrics.connectStarted _ _ (fun hstarted => ⟨rfl, ?_⟩) _ _
    unfold RequestMetrics.connectStarted at hstarted
    exact (Bool.and_eq_true_iff.mp (Bool.and_eq_true_iff.mp hstarted).1).1
  tls_le := by
    refine started_le_succeeded h.tls_le metrics.connectStarted (!metrics.connectFailed) _
      metrics.tlsStarted _ _ (fun hstarted => ?_) _ _
    unfold RequestMetrics.tlsStarted at hstarted
    exact Bool.and_eq_true_iff.mp (Bool.and_eq_true_iff.mp hstarted).1
  ttfb_le := by
    refine started_le_succeeded h.ttfb_le metrics.tlsStarted (!metrics.tlsFailed) _
      metrics.ttfbStarted _ _ (fun hstarted => ?_) _ _
    unfold RequestMetrics.ttfbStarted at hstarted
    exact Bool.and_eq_true_iff.mp (Bool.and_eq_true_iff.mp hstarted).1
  failures_eq := by
    show UnorderedMap.total (tallyFailureStage s.snapshot.failureStages metrics.talliedStage) = _
    rw [total_tallyFailureStage, h.failures_eq, List.countP_append, List.countP_singleton]
    simp only [talliedStage_eq_nil_iff, ite_not, decide_eq_true_eq]
  bounded := h.bounded.tallyFailureStage _
  events_eq := by
    show pushEvent s.maxEvents s.events metrics = _
    rw [h.maxEvents_eq, h.events_eq]
    exact pushEvent_drop (le_max_right _ _) events metrics

theorem inv_reported (maxEvents : ℕ) (events : List RequestMetrics) :
    Inv maxEvents events (reported maxEvents events) := by
  induction events using List.reverseRecOn with
  | nil => exact inv_new maxEvents
  | append_singleton events metrics ih =>
    rw [reported_append]
    exact ih.reportRequest metrics

end

/-- **A collector's numbers are those of the events reported to it.** -/
theorem conserved_reported (maxEvents : ℕ) (events : List RequestMetrics) :
    Conserved maxEvents events (reported maxEvents events) := by
  have h := inv_reported maxEvents events
  refine ⟨h.requests_eq, h.success_add_failure, fun stage hstage => (h.stages stage hstage).consistent,
    h.connect_le, h.tls_le, h.ttfb_le, h.failures_eq, ?_, h.events_eq⟩
  rcases h.bounded with hle | ⟨heq, -⟩
  · exact le_trans hle (by decide)
  · exact heq.le

end Monitor

end AsterNet
