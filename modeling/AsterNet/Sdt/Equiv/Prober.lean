import AsterNet.Sdt.Prober

/-!
# What holds of a prober in every state

`Consistent` ties the counters, the loss rate, the score, the quality and the smoothed round trip time
of a snapshot together; `consistent_session` proves it of every state any sequence of steps leads to.
`Inv` is what a step preserves (`inv_apply`): besides `Consistent`, a good quality has a score, and a
score has a sample or an absent network behind it.
-/

namespace AsterNet

namespace Prober

/-- The round trip times of the successful samples, after one more step. -/
def noteRtt (rtts : List ℤ) : Op → List ℤ
  | .observeSample _ success sample =>
    if success ∧ 0 ≤ sample.rttMs then rtts ++ [sample.rttMs] else rtts
  | .beginProbe _ => rtts
  | .onNetworkChange _ _ _ => []

/-- The round trip times of the successful samples since the last network change. -/
def successRtts (ops : List Op) : List ℤ := ops.foldl noteRtt []

/-- The round trip times a step reports are below a bound. -/
def Op.RttBelow (bound : ℤ) : Op → Prop
  | .observeSample _ _ sample => sample.rttMs < bound
  | .beginProbe _ => True
  | .onNetworkChange _ _ _ => True

/-- A value between the smallest and the largest of a list. -/
def Within (values : List ℤ) (x : ℤ) : Prop := (∃ lo ∈ values, lo ≤ x) ∧ ∃ hi ∈ values, x ≤ hi

/-- The ties between the fields of a snapshot. -/
structure Consistent (config : Config) (rtts : List ℤ) (s : QualitySnapshot) : Prop where
  samples_eq : s.samples = s.successSamples + s.failureSamples
  totalFailures_eq : s.totalFailures = s.failureSamples
  consecutiveFailures_le : s.consecutiveFailures ≤ s.failureSamples
  loss : 0 < s.samples →
    s.lossPermil = (1000 * s.totalFailures / s.samples : ℕ) ∧ 0 ≤ s.lossPermil ∧ s.lossPermil ≤ 1000
  score : s.score = -1 ∨ 0 ≤ s.score ∧ s.score ≤ 100
  offline : s.network = .none → s.quality = .offline ∧ s.score = 0
  good : s.quality = .good → config.degradedScoreThreshold ≤ s.score ∧ s.consecutiveFailures = 0
  bad : config.failuresBeforeBad ≤ s.consecutiveFailures → s.quality = .bad ∨ s.quality = .offline
  smoothed : s.smoothedRttMs = -1 ∨ Within rtts s.smoothedRttMs

/-! ### The score -/

theorem computeScore_range (sample : QualitySample) :
    computeScore sample = -1 ∨ 0 ≤ computeScore sample ∧ computeScore sample ≤ 100 := by
  unfold computeScore
  split_ifs with h
  · exact .inl rfl
  · refine .inr ⟨le_max_left _ _, ?_⟩
    exact max_le (by omega) (min_le_left _ _)

/-! ### The loss rate -/

theorem lossPermil_updateLoss {s : QualitySnapshot} (hpos : 0 < s.samples)
    (hle : s.totalFailures ≤ s.samples) :
    (updateLoss s).lossPermil = (1000 * s.totalFailures / s.samples : ℕ)
      ∧ 0 ≤ (updateLoss s).lossPermil ∧ (updateLoss s).lossPermil ≤ 1000 := by
  have hmax : max 1 s.samples = s.samples := max_eq_right hpos
  -- no more failures than samples, so the cap of 1000 is not reached
  have hcap : s.totalFailures * 1000 / s.samples ≤ 1000 := by
    apply Nat.div_le_of_le_mul
    exact Nat.mul_le_mul_right 1000 hle
  have heq : (updateLoss s).lossPermil = (1000 * s.totalFailures / s.samples : ℕ) := by
    show ((min 1000 (s.totalFailures * 1000 / max 1 s.samples) : ℕ) : ℤ) = _
    rw [hmax, min_eq_right hcap, Nat.mul_comm]
  rw [Nat.mul_comm] at hcap
  rw [heq]
  exact ⟨rfl, Int.natCast_nonneg _, by exact_mod_cast hcap⟩

/-! ### The smoothed round trip time -/

theorem within_append_self {values : List ℤ} {x : ℤ} : Within (values ++ [x]) x :=
  ⟨⟨x, by simp, le_refl x⟩, x, by simp, le_refl x⟩

/-- The smoothed value lies between what it was and the sample. -/
theorem smooth_bounds {old rtt : ℤ} (hold : 0 ≤ old) (hrtt : 0 ≤ rtt) (holdlt : old < 2 ^ 27)
    (hrttlt : rtt < 2 ^ 27) : min old rtt ≤ smooth old rtt ∧ smooth old rtt ≤ max old rtt := by
  have hfits : toInt (old * 7 + rtt * 3) = old * 7 + rtt * 3 := by
    unfold toInt
    exact Int.bmod_eq_of_le (by omega) (by omega)
  have heq : smooth old rtt = (old * 7 + rtt * 3) / 10 := by
    unfold smooth
    rw [if_neg (by omega), hfits, Int.tdiv_eq_ediv_of_nonneg (by omega)]
  rw [heq]
  omega

/-- Below a bound, as the times it was made of are. -/
theorem Within.lt {values : List ℤ} {x bound : ℤ} (h : Within values x) (hb : ∀ v ∈ values, v < bound) :
    x < bound := by
  obtain ⟨-, hi, hhi, hge⟩ := h
  exact lt_of_le_of_lt hge (hb hi hhi)

theorem Within.nonneg {values : List ℤ} {x : ℤ} (h : Within values x) (hb : ∀ v ∈ values, 0 ≤ v) :
    0 ≤ x := by
  obtain ⟨⟨lo, hlo, hle⟩, -⟩ := h
  exact le_trans (hb lo hlo) hle

theorem within_smooth {rtts : List ℤ} {old rtt : ℤ} (hrtts : ∀ v ∈ rtts, 0 ≤ v ∧ v < 2 ^ 27)
    (hold : old = -1 ∨ Within rtts old) (hrtt : 0 ≤ rtt) (hrttlt : rtt < 2 ^ 27) :
    Within (rtts ++ [rtt]) (smooth old rtt) := by
  rcases hold with rfl | hold
  · -- the first time is taken as it is
    exact within_append_self
  · have hnonneg := hold.nonneg fun v hv => (hrtts v hv).1
    have hlt := hold.lt fun v hv => (hrtts v hv).2
    obtain ⟨hlo, hhi⟩ := smooth_bounds hnonneg hrtt hlt hrttlt
    obtain ⟨⟨lo, hlomem, hlole⟩, hi, hhimem, hhile⟩ := hold
    constructor
    · -- below lies the smaller one of the old value's bound and the sample
      rcases le_total old rtt with hle | hle
      · rw [min_eq_left hle] at hlo
        exact ⟨lo, List.mem_append_left _ hlomem, by omega⟩
      · rw [min_eq_right hle] at hlo
        exact ⟨rtt, by simp, hlo⟩
    · rcases le_total old rtt with hle | hle
      · rw [max_eq_right hle] at hhi
        exact ⟨rtt, by simp, hhi⟩
      · rw [max_eq_left hle] at hhi
        exact ⟨hi, List.mem_append_left _ hhimem, by omega⟩

/-! ### What the two branches do -/

/-- A failure changes the counters, and the quality as its case says. -/
theorem observeFailure_cases (config : Config) (nowMs : ℤ) (before : NetworkQuality)
    (current : QualitySnapshot) :
    ∃ quality, (observeFailure config nowMs before current).snapshot =
        { failed nowMs current with quality, score := 0 } ∧
      (current.network = .none ∧ quality = .offline
        ∨ current.network ≠ .none ∧ config.failuresBeforeBad ≤ current.consecutiveFailures + 1
          ∧ quality = .bad
        ∨ current.network ≠ .none ∧ current.consecutiveFailures + 1 < config.failuresBeforeBad
          ∧ (before = .good ∧ quality = .degraded ∨ before ≠ .good ∧ quality = current.quality)) := by
  by_cases hnet : current.network = .none
  · exact ⟨.offline, if_pos hnet, .inl ⟨hnet, rfl⟩⟩
  by_cases hbad : config.failuresBeforeBad ≤ current.consecutiveFailures + 1
  · exact ⟨.bad, (if_neg hnet).trans (if_pos hbad), .inr (.inl ⟨hnet, hbad, rfl⟩)⟩
  have hfew : current.consecutiveFailures + 1 < config.failuresBeforeBad := by omega
  by_cases hgood : before = .good
  · exact ⟨.degraded, (if_neg hnet).trans ((if_neg hbad).trans (if_pos hgood)),
      .inr (.inr ⟨hnet, hfew, .inl ⟨hgood, rfl⟩⟩)⟩
  · exact ⟨current.quality, (if_neg hnet).trans ((if_neg hbad).trans (if_neg hgood)),
      .inr (.inr ⟨hnet, hfew, .inr ⟨hgood, rfl⟩⟩)⟩

/-- The grade of a success changes quality and score only. -/
theorem gradeSuccess_cases (config : Config) (before : NetworkQuality) (good : ℕ)
    (current : QualitySnapshot) :
    ∃ quality score, (gradeSuccess config before good current).snapshot = { current with quality, score } ∧
      (current.network = .none ∧ quality = .offline ∧ score = 0
        ∨ current.network ≠ .none ∧ score = current.score
          ∧ (quality = .bad ∨ quality = .degraded
            ∨ quality = .good ∧ 0 ≤ score ∧ config.degradedScoreThreshold ≤ score
            ∨ quality = current.quality ∧ (score < 0 ∨ before ≠ .good))) := by
  unfold gradeSuccess
  by_cases hnet : current.network = .none
  · exact ⟨.offline, 0, by rw [if_pos hnet], .inl ⟨hnet, rfl, rfl⟩⟩
  rw [if_neg hnet]
  by_cases hscore : 0 ≤ current.score
  · rw [if_pos hscore]
    by_cases hweak : current.score < config.weakScoreThreshold
    · exact ⟨.bad, current.score, by rw [if_pos hweak], .inr ⟨hnet, rfl, .inl rfl⟩⟩
    rw [if_neg hweak]
    by_cases hdegraded : current.score < config.degradedScoreThreshold
    · exact ⟨.degraded, current.score, by rw [if_pos hdegraded], .inr ⟨hnet, rfl, .inr (.inl rfl)⟩⟩
    rw [if_neg hdegraded]
    by_cases hrecover : before = .unknown ∨ before = .good ∨ config.goodSamplesToRecover ≤ good + 1
    · exact ⟨.good, current.score, if_pos hrecover,
        .inr ⟨hnet, rfl, .inr (.inr (.inl ⟨rfl, hscore, by omega⟩))⟩⟩
    · -- not yet enough good samples in a row
      have hbefore : before ≠ .good := fun h => hrecover (.inr (.inl h))
      exact ⟨current.quality, current.score, if_neg hrecover,
        .inr ⟨hnet, rfl, .inr (.inr (.inr ⟨rfl, .inr hbefore⟩))⟩⟩
  · exact ⟨current.quality, current.score, by rw [if_neg hscore],
      .inr ⟨hnet, rfl, .inr (.inr (.inr ⟨rfl, .inl (by omega)⟩))⟩⟩

/-- Scoring changes the score only. -/
theorem rescore_cases (score : ℤ) (current : QualitySnapshot)
    (hscore : score = -1 ∨ 0 ≤ score ∧ score ≤ 100)
    (hold : current.score = -1 ∨ 0 ≤ current.score ∧ current.score ≤ 100) :
    ∃ score', rescore score current = { current with score := score' } ∧
      (score' = -1 ∨ 0 ≤ score' ∧ score' ≤ 100) ∧ (0 ≤ current.score → 0 ≤ score') := by
  by_cases hnonneg : 0 ≤ score
  · exact ⟨score, if_pos hnonneg, hscore, fun _ => hnonneg⟩
  · exact ⟨current.score, if_neg hnonneg, hold, id⟩

/-- After the branch comes the loss rate, and the time of a change of quality. -/
theorem exists_observeSample (config : Config) (nowMs : ℤ) (success : Bool) (sample : QualitySample)
    (s : State) : ∃ changedMs, (observeSample config nowMs success sample s).1.snapshot =
      { updateLoss (graded config nowMs success sample s).snapshot with
        lastQualityChangeMs := changedMs } := by
  unfold observeSample
  dsimp only
  split_ifs
  · exact ⟨nowMs, rfl⟩
  · exact ⟨_, rfl⟩

/-- How a sample counts. -/
structure Counted (nowMs : ℤ) (before after : QualitySnapshot) : Prop where
  networkEpoch_eq : after.networkEpoch = before.networkEpoch
  samples_eq : after.samples = before.samples + 1
  lastSampleMs_eq : after.lastSampleMs = nowMs

/-- Every sample counts, whatever it says. -/
theorem counted_observeSample (config : Config) (nowMs : ℤ) (success : Bool) (sample : QualitySample)
    (s : State) :
    Counted nowMs s.snapshot (observeSample config nowMs success sample s).1.snapshot := by
  obtain ⟨changedMs, heq⟩ := exists_observeSample config nowMs success sample s
  suffices h : Counted nowMs s.snapshot (graded config nowMs success sample s).snapshot by
    rw [heq]
    exact ⟨h.networkEpoch_eq, h.samples_eq, h.lastSampleMs_eq⟩
  unfold graded
  dsimp only
  cases success with
  | false =>
    obtain ⟨quality, heq, -⟩ :=
      observeFailure_cases config nowMs s.snapshot.quality (noteSample nowMs sample s.snapshot)
    rw [if_neg Bool.false_ne_true, heq]
    exact ⟨rfl, rfl, rfl⟩
  | true =>
    rw [if_pos rfl]
    unfold observeSuccess rescore
    dsimp only
    obtain ⟨quality, score, heq, -⟩ := gradeSuccess_cases config s.snapshot.quality
      s.consecutiveGoodSamples _
    rw [heq]
    split_ifs
    · exact ⟨rfl, rfl, rfl⟩
    · exact ⟨rfl, rfl, rfl⟩

/-! ### One step -/

/-- `Consistent` but for the loss rate, which a sample updates last. -/
structure Graded (config : Config) (rtts : List ℤ) (s : QualitySnapshot) : Prop where
  samples_eq : s.samples = s.successSamples + s.failureSamples
  totalFailures_eq : s.totalFailures = s.failureSamples
  consecutiveFailures_le : s.consecutiveFailures ≤ s.failureSamples
  score : s.score = -1 ∨ 0 ≤ s.score ∧ s.score ≤ 100
  offline : s.network = .none → s.quality = .offline ∧ s.score = 0
  good : s.quality = .good → config.degradedScoreThreshold ≤ s.score ∧ s.consecutiveFailures = 0
  bad : config.failuresBeforeBad ≤ s.consecutiveFailures → s.quality = .bad ∨ s.quality = .offline
  smoothed : s.smoothedRttMs = -1 ∨ Within rtts s.smoothedRttMs
  good_score : s.quality = .good → 0 ≤ s.score

/-- What every step preserves. -/
structure Inv (config : Config) (rtts : List ℤ) (s : QualitySnapshot) : Prop where
  consistent : Consistent config rtts s
  rtts_bounds : ∀ v ∈ rtts, 0 ≤ v ∧ v < 2 ^ 27
  good_score : s.quality = .good → 0 ≤ s.score

section

variable {config : Config} {rtts : List ℤ} {s : QualitySnapshot} {nowMs : ℤ} {sample : QualitySample}

theorem Graded.updateLoss (h : Graded config rtts s) : Consistent config rtts (updateLoss s) where
  samples_eq := h.samples_eq
  totalFailures_eq := h.totalFailures_eq
  consecutiveFailures_le := h.consecutiveFailures_le
  loss := by
    intro hpos
    refine lossPermil_updateLoss hpos ?_
    rw [h.totalFailures_eq, h.samples_eq]
    exact Nat.le_add_left _ _
  score := h.score
  offline := h.offline
  good := h.good
  bad := h.bad
  smoothed := h.smoothed

theorem Inv.graded_failure (h : Inv config rtts s) :
    Graded config rtts (observeFailure config nowMs s.quality (noteSample nowMs sample s)).snapshot := by
  obtain ⟨quality, heq, hcases⟩ :=
    observeFailure_cases config nowMs s.quality (noteSample nowMs sample s)
  rw [heq]
  have hsamples := h.consistent.samples_eq
  have htotal := h.consistent.totalFailures_eq
  have hconsecutive := h.consistent.consecutiveFailures_le
  have hgood : quality ≠ .good := by
    rintro rfl
    rcases hcases with ⟨-, heq⟩ | ⟨-, -, heq⟩ | ⟨-, -, ⟨-, heq⟩ | ⟨hne, heq⟩⟩
    · cases heq
    · cases heq
    · cases heq
    · exact hne heq.symm
  exact
    { samples_eq := by show s.samples + 1 = s.successSamples + (s.failureSamples + 1); omega
      totalFailures_eq := by show s.totalFailures + 1 = s.failureSamples + 1; omega
      consecutiveFailures_le := by show s.consecutiveFailures + 1 ≤ s.failureSamples + 1; omega
      score := .inr ⟨le_refl 0, by show (0 : ℤ) ≤ 100; omega⟩
      offline := by
        intro hnet
        rcases hcases with ⟨-, hoffline⟩ | ⟨hne, -⟩ | ⟨hne, -⟩
        · exact ⟨hoffline, rfl⟩
        · exact absurd hnet hne
        · exact absurd hnet hne
      good := fun h => absurd h hgood
      bad := by
        intro hmany
        rcases hcases with ⟨-, hoffline⟩ | ⟨-, -, hbad⟩ | ⟨-, hfew, -⟩
        · exact .inr hoffline
        · exact .inl hbad
        · exact absurd hmany (Nat.not_le.mpr hfew)
      smoothed := h.consistent.smoothed
      good_score := fun h => absurd h hgood }

/-- The smoothed time after a success. -/
theorem Inv.smoothed_succeeded (h : Inv config rtts s) (nowMs : ℤ) (hrtt : sample.rttMs < 2 ^ 27) :
    (succeeded nowMs sample (noteSample nowMs sample s)).smoothedRttMs = -1 ∨
      Within (if 0 ≤ sample.rttMs then rtts ++ [sample.rttMs] else rtts)
        (succeeded nowMs sample (noteSample nowMs sample s)).smoothedRttMs := by
  show (if 0 ≤ sample.rttMs then smooth s.smoothedRttMs sample.rttMs else s.smoothedRttMs) = -1 ∨
    Within _ (if 0 ≤ sample.rttMs then smooth s.smoothedRttMs sample.rttMs else s.smoothedRttMs)
  by_cases hnonneg : 0 ≤ sample.rttMs
  · simp only [if_pos hnonneg]
    exact .inr (within_smooth h.rtts_bounds h.consistent.smoothed hnonneg hrtt)
  · simp only [if_neg hnonneg]
    exact h.consistent.smoothed

theorem Inv.graded_success (h : Inv config rtts s) (hfail : 1 ≤ config.failuresBeforeBad) (good : ℕ)
    (hrtt : sample.rttMs < 2 ^ 27) :
    Graded config (if 0 ≤ sample.rttMs then rtts ++ [sample.rttMs] else rtts)
      (observeSuccess config nowMs sample s.quality good (noteSample nowMs sample s)).snapshot := by
  have hsamples := h.consistent.samples_eq
  have hsmoothed := h.smoothed_succeeded nowMs hrtt
  unfold observeSuccess
  -- first the score, then the grade that goes with it
  obtain ⟨score, hrescore, hscore, hkeep⟩ :=
    rescore_cases (computeScore (aggregated sample (succeeded nowMs sample (noteSample nowMs sample s))))
      (succeeded nowMs sample (noteSample nowMs sample s)) (computeScore_range _) h.consistent.score
  dsimp only
  rw [hrescore]
  obtain ⟨quality, score', hgrade, hcases⟩ := gradeSuccess_cases config s.quality good
    { succeeded nowMs sample (noteSample nowMs sample s) with score }
  rw [hgrade]
  -- a quality that stays good had a score before
  have hgood : quality = .good → 0 ≤ score' ∧ config.degradedScoreThreshold ≤ score' := by
    rintro rfl
    rcases hcases with ⟨-, heq, -⟩ | ⟨-, rfl, heq | heq | ⟨-, hpos, hge⟩ | ⟨heq, hlow | hne⟩⟩
    · cases heq
    · cases heq
    · cases heq
    · exact ⟨hpos, hge⟩
    · exact absurd (hkeep (h.good_score heq.symm)) (Int.not_le.mpr hlow)
    · exact absurd heq.symm hne
  exact
    { samples_eq := by show s.samples + 1 = s.successSamples + 1 + s.failureSamples; omega
      totalFailures_eq := h.consistent.totalFailures_eq
      consecutiveFailures_le := Nat.zero_le _
      score := by
        rcases hcases with ⟨-, -, rfl⟩ | ⟨-, rfl, -⟩
        · exact .inr ⟨le_refl 0, by show (0 : ℤ) ≤ 100; omega⟩
        · exact hscore
      offline := by
        intro hnet
        rcases hcases with ⟨-, hoffline, hzero⟩ | ⟨hne, -⟩
        · exact ⟨hoffline, hzero⟩
        · exact absurd hnet hne
      good := fun hq => ⟨(hgood hq).2, rfl⟩
      bad := fun hmany => absurd hmany (by show ¬ config.failuresBeforeBad ≤ 0; omega)
      smoothed := hsmoothed
      good_score := fun hq => (hgood hq).1 }

/-- A sample, whatever it says. -/
theorem inv_observeSample {prober : State} (h : Inv config rtts prober.snapshot)
    (hfail : 1 ≤ config.failuresBeforeBad) (success : Bool) (hrtt : sample.rttMs < 2 ^ 27) :
    Inv config (noteRtt rtts (.observeSample nowMs success sample))
      (observeSample config nowMs success sample prober).1.snapshot := by
  have hbounds : ∀ v ∈ noteRtt rtts (.observeSample nowMs success sample), 0 ≤ v ∧ v < 2 ^ 27 := by
    intro v hv
    simp only [noteRtt] at hv
    split_ifs at hv with hnote
    · rcases List.mem_append.mp hv with hv | hv
      · exact h.rtts_bounds v hv
      · rw [List.mem_singleton.mp hv]
        exact ⟨hnote.2, hrtt⟩
    · exact h.rtts_bounds v hv
  have hgraded : Graded config (noteRtt rtts (.observeSample nowMs success sample))
      (graded config nowMs success sample prober).snapshot := by
    cases success with
    | false => exact h.graded_failure
    | true =>
      simp only [noteRtt, true_and]
      exact h.graded_success hfail prober.consecutiveGoodSamples hrtt
  obtain ⟨changedMs, heq⟩ := exists_observeSample config nowMs success sample prober
  rw [heq]
  exact ⟨{ hgraded.updateLoss with }, hbounds, hgraded.good_score⟩

theorem inv_beginProbe {prober : State} (h : Inv config rtts prober.snapshot) :
    Inv config rtts (beginProbe nowMs prober).snapshot :=
  ⟨{ h.consistent with }, h.rtts_bounds, h.good_score⟩

/-- A new snapshot: no samples, and a quality only where there is no network. -/
theorem inv_new {net : Network} (hfail : 1 ≤ config.failuresBeforeBad) (hsamples : s.samples = 0)
    (hsuccess : s.successSamples = 0) (hfailure : s.failureSamples = 0) (htotal : s.totalFailures = 0)
    (hconsecutive : s.consecutiveFailures = 0) (hsmoothed : s.smoothedRttMs = -1)
    (hnet : s.network = net) (hquality : s.quality = if net = .none then .offline else .unknown)
    (hscore : s.score = if net = .none then 0 else -1) : Inv config [] s := by
  have hgood : s.quality ≠ .good := by
    rw [hquality]
    split_ifs <;> decide
  exact
    { consistent :=
        { samples_eq := by omega
          totalFailures_eq := by omega
          consecutiveFailures_le := by omega
          loss := fun hpos => by omega
          score := by
            rw [hscore]
            split_ifs <;> omega
          offline := fun hnone => by
            rw [hquality, hscore, ← hnet, if_pos hnone, if_pos hnone]
            exact ⟨rfl, rfl⟩
          good := fun h => absurd h hgood
          bad := fun hmany => by omega
          smoothed := .inl hsmoothed }
      rtts_bounds := fun v hv => by simp at hv
      good_score := fun h => absurd h hgood }

theorem inv_apply {prober : State} {op : Op} (hfail : 1 ≤ config.failuresBeforeBad)
    (h : Inv config rtts prober.snapshot) (hrtt : op.RttBelow (2 ^ 27)) :
    Inv config (noteRtt rtts op) (apply config prober op).snapshot := by
  cases op with
  | observeSample nowMs success sample => exact inv_observeSample h hfail success hrtt
  | beginProbe nowMs => exact inv_beginProbe h
  | onNetworkChange nowMs networkEpoch net => exact inv_new hfail rfl rfl rfl rfl rfl rfl rfl rfl rfl

theorem inv_session {ops : List Op} (hfail : 1 ≤ config.failuresBeforeBad)
    (hrtt : ∀ op ∈ ops, op.RttBelow (2 ^ 27)) :
    Inv config (successRtts ops) (session config ops).snapshot := by
  induction ops using List.reverseRecOn with
  | nil => exact @inv_new _ _ .unknown hfail rfl rfl rfl rfl rfl rfl rfl rfl rfl
  | append_singleton ops op ih =>
    have hinv := ih fun op' hop' => hrtt op' (List.mem_append_left _ hop')
    have happly := inv_apply hfail hinv (hrtt op (by simp))
    unfold session successRtts at happly ⊢
    rw [List.foldl_append, List.foldl_append]
    exact happly

end

/-- **The quality prober keeps its counts and its grade consistent.** -/
theorem consistent_session (config : Config) (ops : List Op) (hfail : 1 ≤ config.failuresBeforeBad)
    (hrtt : ∀ op ∈ ops, op.RttBelow (2 ^ 27)) :
    Consistent config (successRtts ops) (session config ops).snapshot :=
  (inv_session hfail hrtt).consistent

/-- Two failures, a success of 30 ms and one of 70 ms on a cellular network. -/
theorem consistent_session_recovering :
    Consistent {} [30, 70]
      (session {} [.observeSample 1 false {}, .observeSample 2 false {},
        .observeSample 3 true { rttMs := 30, net := .cellular },
        .observeSample 4 true { rttMs := 70 }]).snapshot :=
  consistent_session {}
    [.observeSample 1 false {}, .observeSample 2 false {},
      .observeSample 3 true { rttMs := 30, net := .cellular }, .observeSample 4 true { rttMs := 70 }]
    (by decide) (by simp [Op.RttBelow])

end Prober

end AsterNet
