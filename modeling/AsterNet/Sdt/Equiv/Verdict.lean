import AsterNet.Lib.Transition
import AsterNet.Sdt.Equiv.Prober

/-!
# How a weak verdict ends

* `exists_goodStreak_of_recovery`: a prober that goes from a weak quality to a good one has seen
  `good_samples_to_recover` good samples in a row, on the network it is on.
* `forall_offlineIffNone_iff`: a prober's quality is `Offline` just when its network is `NONE`, in every
  state of a run, exactly if each sample that reports another network than `NONE` leaves `Offline`.

Both rest on what one sample does: `streak_observeSample` says what it does to the count of good
samples, and `quality_observeSample_of_none` what it does to an `Offline` verdict.
-/

namespace AsterNet

namespace Prober

/-- `GoodStreak config before streak n`: after the steps `before`, the steps `streak` stay on one
network and their samples are `n` successes, each of which leaves a score that is not degraded and a
network. -/
inductive GoodStreak (config : Config) (before : List Op) : List Op → ℕ → Prop
  | nil : GoodStreak config before [] 0
  | beginProbe {streak : List Op} {n : ℕ} (h : GoodStreak config before streak n) (nowMs : ℤ) :
      GoodStreak config before (streak ++ [.beginProbe nowMs]) n
  | sample {streak : List Op} {n : ℕ} (h : GoodStreak config before streak n) (nowMs : ℤ)
      (sample : QualitySample)
      (hscore : config.degradedScoreThreshold ≤
        (session config (before ++ (streak ++ [.observeSample nowMs true sample]))).snapshot.score)
      (hnet : (session config (before ++ (streak ++ [.observeSample nowMs true sample]))).snapshot.network
        ≠ .none) :
      GoodStreak config before (streak ++ [.observeSample nowMs true sample]) (n + 1)

/-- `Offline` means no network. -/
def OfflineIffNone (s : State) : Prop := s.snapshot.quality = .offline ↔ s.snapshot.network = .none

/-- The score of a success on a prober whose score is zero. -/
def scoreFromZero (sample : QualitySample) (s : State) : ℤ :=
  max 0 (computeScore (aggregated sample (succeeded 0 sample s.snapshot)))

/-- A step that does not report another network than `NONE` to a prober without one, or else makes it
leave `Offline`. -/
def LeavesOffline (config : Config) (s : State) : Op → Prop
  | .observeSample _ success sample =>
    s.snapshot.network = .none → sample.net ≠ .unknown → sample.net ≠ .none →
      if success = true then
        scoreFromZero sample s < config.weakScoreThreshold ∨
          scoreFromZero sample s < config.degradedScoreThreshold ∨ config.goodSamplesToRecover ≤ 1
      else config.failuresBeforeBad ≤ s.snapshot.consecutiveFailures + 1
  | .beginProbe _ => True
  | .onNetworkChange _ _ _ => True

theorem session_append (config : Config) (ops : List Op) (op : Op) :
    session config (ops ++ [op]) = apply config (session config ops) op := by
  unfold session
  rw [List.foldl_append]
  rfl

@[simp] theorem quality_rescore (score : ℤ) (current : QualitySnapshot) :
    (rescore score current).quality = current.quality := by
  unfold rescore
  split_ifs
  · rfl
  · rfl

@[simp] theorem network_rescore (score : ℤ) (current : QualitySnapshot) :
    (rescore score current).network = current.network := by
  unfold rescore
  split_ifs
  · rfl
  · rfl

/-! ### The streak of good samples -/

section

variable {config : Config} {nowMs : ℤ} {sample : QualitySample} {s : State}

/-- **What a sample does to the streak.**  Any sample ends it, or is a good one and counts, or leaves a
prober that has no score without one. -/
inductive Tallied (config : Config) (success : Bool) (s s' : State) : Prop
  | ends (hcount : s'.consecutiveGoodSamples = 0)
      (hgood : s'.snapshot.quality = .good → s.snapshot.quality = .good)
  | counts (hsuccess : success = true) (hcount : s'.consecutiveGoodSamples = s.consecutiveGoodSamples + 1)
      (hnet : s'.snapshot.network ≠ .none) (hnonneg : 0 ≤ s'.snapshot.score)
      (hscore : config.degradedScoreThreshold ≤ s'.snapshot.score)
      (hgood : s'.snapshot.quality = .good → s.snapshot.quality = .unknown ∨ s.snapshot.quality = .good ∨
        config.goodSamplesToRecover ≤ s'.consecutiveGoodSamples)
  | unscored (hcount : s'.consecutiveGoodSamples = s.consecutiveGoodSamples)
      (hscore : s'.snapshot.score < 0) (hbefore : s.snapshot.score < 0)
      (hgood : s'.snapshot.quality = .good → s.snapshot.quality = .good)

theorem tallied_failure : Tallied config false s (graded config nowMs false sample s) := by
  obtain ⟨quality, heq, hcases⟩ :=
    observeFailure_cases config nowMs s.snapshot.quality (noteSample nowMs sample s.snapshot)
  refine .ends rfl ?_
  show (observeFailure config nowMs s.snapshot.quality
    (noteSample nowMs sample s.snapshot)).snapshot.quality = .good → _
  rw [heq]
  -- only a quality that is left alone can be a good one
  rcases hcases with ⟨-, rfl⟩ | ⟨-, -, rfl⟩ | ⟨-, -, ⟨-, rfl⟩ | ⟨-, rfl⟩⟩
  · exact fun h => NetworkQuality.noConfusion h
  · exact fun h => NetworkQuality.noConfusion h
  · exact fun h => NetworkQuality.noConfusion h
  · exact id

theorem tallied_gradeSuccess {current : QualitySnapshot} (hquality : current.quality = s.snapshot.quality)
    (hscore : current.score < 0 → s.snapshot.score < 0) :
    Tallied config true s (gradeSuccess config s.snapshot.quality s.consecutiveGoodSamples current) := by
  unfold gradeSuccess
  split_ifs with hnet hnonneg hweak hdegraded hrecover
  · exact .ends rfl fun h => NetworkQuality.noConfusion h
  · exact .ends rfl fun h => NetworkQuality.noConfusion h
  · exact .ends rfl fun h => NetworkQuality.noConfusion h
  · exact .counts rfl rfl hnet hnonneg (Int.not_lt.mp hdegraded) fun _ => hrecover
  · -- the sample counts, and the quality waits for more of them
    refine .counts rfl rfl hnet hnonneg (Int.not_lt.mp hdegraded) fun h => .inr (.inl ?_)
    rw [← hquality]
    exact h
  · exact .unscored rfl (Int.not_le.mp hnonneg) (hscore (Int.not_le.mp hnonneg)) fun h => hquality ▸ h

theorem tallied_success : Tallied config true s (graded config nowMs true sample s) := by
  show Tallied config true s (gradeSuccess config _ _ (rescore _ _))
  apply tallied_gradeSuccess
  · exact quality_rescore _ _
  · unfold rescore
    split_ifs with hscore
    · intro hlt
      exact absurd hscore (Int.not_le.mpr hlt)
    · exact id

/-- Bringing the loss rate up to date leaves what the streak is about. -/
theorem Tallied.observeSample {success : Bool}
    (h : Tallied config success s (graded config nowMs success sample s)) :
    Tallied config success s (observeSample config nowMs success sample s).1 := by
  unfold Prober.observeSample
  dsimp only
  split_ifs
  · cases h with
    | ends hcount hgood => exact .ends hcount hgood
    | counts hsuccess hcount hnet hnonneg hscore hgood =>
      exact .counts hsuccess hcount hnet hnonneg hscore hgood
    | unscored hcount hscore hbefore hgood => exact .unscored hcount hscore hbefore hgood
  · cases h with
    | ends hcount hgood => exact .ends hcount hgood
    | counts hsuccess hcount hnet hnonneg hscore hgood =>
      exact .counts hsuccess hcount hnet hnonneg hscore hgood
    | unscored hcount hscore hbefore hgood => exact .unscored hcount hscore hbefore hgood

theorem tallied_observeSample (success : Bool) :
    Tallied config success s (observeSample config nowMs success sample s).1 := by
  cases success with
  | false => exact tallied_failure.observeSample
  | true => exact tallied_success.observeSample

end

/-- The prober's counter is the length of a streak that reaches to the last step. -/
structure Counting (config : Config) (ops : List Op) : Prop where
  streak : ∃ before streak, ops = before ++ streak ∧
    GoodStreak config before streak (session config ops).consecutiveGoodSamples
  unscored : (session config ops).snapshot.score < 0 → (session config ops).consecutiveGoodSamples = 0

section

variable {config : Config} {ops : List Op}

/-- A counter of zero counts no steps. -/
theorem exists_streak_of_eq_zero (h : (session config ops).consecutiveGoodSamples = 0) :
    ∃ before streak, ops = before ++ streak ∧
      GoodStreak config before streak (session config ops).consecutiveGoodSamples := by
  refine ⟨ops, [], (List.append_nil _).symm, ?_⟩
  rw [h]
  exact .nil

theorem Counting.of_eq_zero (h : (session config ops).consecutiveGoodSamples = 0) : Counting config ops :=
  ⟨exists_streak_of_eq_zero h, fun _ => h⟩

theorem Counting.observeSample (h : Counting config ops) (nowMs : ℤ) (success : Bool)
    (sample : QualitySample) : Counting config (ops ++ [.observeSample nowMs success sample]) := by
  have hstep := session_append config ops (.observeSample nowMs success sample)
  have htally : Tallied config success (session config ops)
      (session config (ops ++ [.observeSample nowMs success sample])) := by
    rw [hstep]
    exact tallied_observeSample success
  cases htally with
  | ends hcount _ => exact .of_eq_zero hcount
  | counts hsuccess hcount hnet hnonneg hscore _ =>
    subst hsuccess
    obtain ⟨before, streak, rfl, hstreak⟩ := h.streak
    rw [List.append_assoc] at hnet hscore hcount hnonneg
    refine ⟨⟨before, streak ++ [.observeSample nowMs true sample], List.append_assoc _ _ _, ?_⟩, ?_⟩
    · rw [List.append_assoc, hcount]
      exact .sample hstreak nowMs sample hscore hnet
    · rw [List.append_assoc]
      intro hlt
      exact absurd hnonneg (Int.not_le.mpr hlt)
  | unscored hcount _ hbefore _ =>
    refine .of_eq_zero ?_
    rw [hcount]
    exact h.unscored hbefore

theorem Counting.beginProbe (h : Counting config ops) (nowMs : ℤ) :
    Counting config (ops ++ [.beginProbe nowMs]) := by
  have hstep := session_append config ops (.beginProbe nowMs)
  obtain ⟨before, streak, rfl, hstreak⟩ := h.streak
  refine ⟨⟨before, streak ++ [.beginProbe nowMs], List.append_assoc _ _ _, ?_⟩, ?_⟩
  · rw [hstep]
    exact .beginProbe hstreak nowMs
  · rw [hstep]
    exact h.unscored

theorem counting_session (config : Config) (ops : List Op) : Counting config ops := by
  induction ops using List.reverseRecOn with
  | nil => exact .of_eq_zero rfl
  | append_singleton ops op ih =>
    cases op with
    | observeSample nowMs success sample => exact ih.observeSample nowMs success sample
    | beginProbe nowMs => exact ih.beginProbe nowMs
    | onNetworkChange nowMs networkEpoch net =>
      refine .of_eq_zero ?_
      rw [session_append]
      rfl

end

/-- **A weak verdict is cleared by a streak of good samples only.** -/
theorem exists_goodStreak_of_recovery (config : Config) (ops : List Op) (op : Op)
    (hweak : isWeakNet (session config ops) = true)
    (hgood : (session config (ops ++ [op])).snapshot.quality = .good) :
    ∃ before streak samples, ops ++ [op] = before ++ streak ∧ GoodStreak config before streak samples ∧
      config.goodSamplesToRecover ≤ samples := by
  have hunknown : (session config ops).snapshot.quality ≠ .unknown := by
    intro h
    simp [isWeakNet, h] at hweak
  have hnot : (session config ops).snapshot.quality ≠ .good := by
    intro h
    simp [isWeakNet, h] at hweak
  obtain ⟨before, streak, heq, hstreak⟩ := (counting_session config (ops ++ [op])).streak
  refine ⟨before, streak, _, heq, hstreak, ?_⟩
  rw [session_append] at hgood ⊢
  cases op with
  | observeSample nowMs success sample =>
    have htally : Tallied config success (session config ops)
        (Prober.observeSample config nowMs success sample (session config ops)).1 :=
      tallied_observeSample success
    cases htally with
    | ends _ hkeep => exact absurd (hkeep hgood) hnot
    | counts _ _ _ _ _ hrecover =>
      rcases hrecover hgood with h | h | h
      · exact absurd h hunknown
      · exact absurd h hnot
      · exact h
    | unscored _ _ _ hkeep => exact absurd (hkeep hgood) hnot
  | beginProbe nowMs => exact absurd hgood hnot
  | onNetworkChange nowMs networkEpoch net =>
    -- nothing is known of a new network, or it is absent
    have hnew : (if net = .none then NetworkQuality.offline else .unknown) ≠ .good := by
      split_ifs <;> decide
    exact absurd hgood hnew

/-- Two failures, and three successes of 30 ms, before which one is not enough. -/
theorem exists_goodStreak_of_recovery_third :
    ∃ before streak samples,
      [Op.observeSample 1 false {}, .observeSample 2 false {}, .observeSample 3 true { rttMs := 30 },
        .observeSample 4 true { rttMs := 30 }] ++ [.observeSample 5 true { rttMs := 30 }]
        = before ++ streak ∧ GoodStreak {} before streak samples ∧ 3 ≤ samples :=
  exists_goodStreak_of_recovery {}
    [.observeSample 1 false {}, .observeSample 2 false {}, .observeSample 3 true { rttMs := 30 },
      .observeSample 4 true { rttMs := 30 }]
    (.observeSample 5 true { rttMs := 30 }) (by decide +kernel) (by decide +kernel)

/-! ### Offline -/

section

variable {config : Config} {nowMs : ℤ} {sample : QualitySample} {s : State}

/-- What every step preserves: without a network the score is zero and no sample counts as a good one. -/
structure OfflineInv (s : State) : Prop where
  offline_iff : OfflineIffNone s
  score_eq : s.snapshot.network = .none → s.snapshot.score = 0
  count_eq : s.snapshot.network = .none → s.consecutiveGoodSamples = 0

theorem network_graded (success : Bool) :
    (graded config nowMs success sample s).snapshot.network =
      (noteSample nowMs sample s.snapshot).network := by
  unfold graded
  cases success with
  | false =>
    obtain ⟨quality, heq, -⟩ :=
      observeFailure_cases config nowMs s.snapshot.quality (noteSample nowMs sample s.snapshot)
    rw [if_neg Bool.false_ne_true, heq]
    rfl
  | true =>
    rw [if_pos rfl]
    unfold observeSuccess
    dsimp only
    obtain ⟨quality, score, heq, -⟩ := gradeSuccess_cases config s.snapshot.quality
      s.consecutiveGoodSamples _
    rw [heq]
    exact network_rescore _ _

/-- Without a network a sample leaves `Offline`, whatever it says. -/
theorem graded_of_none (success : Bool) (hnet : (noteSample nowMs sample s.snapshot).network = .none) :
    (graded config nowMs success sample s).snapshot.quality = .offline ∧
      (graded config nowMs success sample s).snapshot.score = 0 ∧
      (graded config nowMs success sample s).consecutiveGoodSamples = 0 := by
  unfold graded
  cases success with
  | false =>
    rw [if_neg Bool.false_ne_true]
    unfold observeFailure failed
    dsimp only [updateLoss]
    rw [if_pos hnet]
    exact ⟨rfl, rfl, rfl⟩
  | true =>
    rw [if_pos rfl]
    unfold observeSuccess gradeSuccess
    dsimp only
    have hnet' : ∀ score, (rescore score
        (succeeded nowMs sample (noteSample nowMs sample s.snapshot))).network = .none := by
      intro score
      rw [network_rescore]
      exact hnet
    rw [if_pos (hnet' _)]
    exact ⟨rfl, rfl, rfl⟩

/-- On a network, a failure leaves an `Offline` verdict as it is unless it is one too many. -/
theorem quality_observeFailure_iff {current : QualitySnapshot} (hnet : current.network ≠ .none) :
    (observeFailure config nowMs current.quality current).snapshot.quality = .offline ↔
      current.quality = .offline ∧ current.consecutiveFailures + 1 < config.failuresBeforeBad := by
  obtain ⟨quality, heq, hcases⟩ := observeFailure_cases config nowMs current.quality current
  rw [heq]
  show quality = .offline ↔ _
  rcases hcases with ⟨hnone, -⟩ | ⟨-, hmany, rfl⟩ | ⟨-, hfew, ⟨hgood, rfl⟩ | ⟨-, rfl⟩⟩
  · exact absurd hnone hnet
  · simp [hmany]
  · simp [hgood]
  · simp [hfew]

/-- On a network, a success leaves an `Offline` verdict as it is if its score is good and does not
suffice. -/
theorem quality_gradeSuccess_iff {good : ℕ} {current : QualitySnapshot} (hnet : current.network ≠ .none)
    (hscore : 0 ≤ current.score) :
    (gradeSuccess config current.quality good current).snapshot.quality = .offline ↔
      current.quality = .offline ∧ config.weakScoreThreshold ≤ current.score ∧
        config.degradedScoreThreshold ≤ current.score ∧ good + 1 < config.goodSamplesToRecover := by
  unfold gradeSuccess
  rw [if_neg hnet, if_pos hscore]
  split_ifs with hweak hdegraded hrecover
  · simp [hweak]
  · simp [hdegraded]
  · rcases hrecover with h | h | h
    · simp [h]
    · simp [h]
    · simp [h]
  · push Not at hrecover
    simp only [Int.not_lt] at hweak hdegraded
    simp [hweak, hdegraded, hrecover.2.2]

theorem quality_gradeSuccess_ne_offline {before : NetworkQuality} {good : ℕ} {current : QualitySnapshot}
    (hnet : current.network ≠ .none) (hquality : current.quality ≠ .offline) :
    (gradeSuccess config before good current).snapshot.quality ≠ .offline := by
  obtain ⟨quality, score, heq, hcases⟩ := gradeSuccess_cases config before good current
  rw [heq]
  rcases hcases with ⟨hnone, -⟩ | ⟨-, -, rfl | rfl | ⟨rfl, -⟩ | ⟨rfl, -⟩⟩
  · exact absurd hnone hnet
  · simp
  · simp
  · simp
  · exact hquality

/-- On a network, no sample makes the verdict `Offline`. -/
theorem quality_graded_ne_offline (success : Bool)
    (hnet : (noteSample nowMs sample s.snapshot).network ≠ .none)
    (hquality : s.snapshot.quality ≠ .offline) :
    (graded config nowMs success sample s).snapshot.quality ≠ .offline := by
  unfold graded
  cases success with
  | false =>
    rw [if_neg Bool.false_ne_true]
    intro h
    exact hquality ((quality_observeFailure_iff hnet).mp h).1
  | true =>
    rw [if_pos rfl]
    apply quality_gradeSuccess_ne_offline
    · rw [network_rescore]
      exact hnet
    · rw [quality_rescore]
      exact hquality

/-- What a success on a prober without a network is graded by. -/
theorem rescore_of_zero {current : QualitySnapshot} (hzero : current.score = 0) (score : ℤ) :
    rescore score current = { current with score := max 0 score } := by
  unfold rescore
  split_ifs with hscore
  · rw [max_eq_right hscore]
  · rw [max_eq_left (by omega), ← hzero]

/-- **What a sample does to an `Offline` verdict.** -/
theorem offlineIffNone_graded_iff (h : OfflineInv s) (success : Bool) :
    OfflineIffNone (graded config nowMs success sample s) ↔
      LeavesOffline config s (.observeSample nowMs success sample) := by
  have hnetwork : (graded config nowMs success sample s).snapshot.network =
      (noteSample nowMs sample s.snapshot).network := network_graded success
  unfold OfflineIffNone
  rw [hnetwork]
  by_cases hnet : (noteSample nowMs sample s.snapshot).network = .none
  · -- the sample reports no network, or does not say
    refine iff_of_true ?_ fun hnone hknown hother => ?_
    · rw [(graded_of_none success hnet).1, hnet]
      exact iff_of_true rfl rfl
    · have hsample : (noteSample nowMs sample s.snapshot).network = sample.net := if_pos hknown
      exact absurd (hsample.symm.trans hnet) hother
  rw [iff_false_right hnet]
  by_cases hnone : s.snapshot.network = .none
  · -- the sample reports a network
    have hoffline : s.snapshot.quality = .offline := h.offline_iff.mpr hnone
    have hknown : sample.net ≠ .unknown := by
      intro hunknown
      exact hnet ((if_neg (not_not.mpr hunknown)).trans hnone)
    have hother : sample.net ≠ .none := by
      intro heq
      exact hnet ((if_pos hknown).trans heq)
    simp only [LeavesOffline, hnone, hknown, hother, ne_eq, not_false_eq_true, forall_const]
    -- a failed sample and a good one leave `Offline` in different ways
    cases success with
    | false =>
      show ¬ (observeFailure config nowMs (noteSample nowMs sample s.snapshot).quality
        (noteSample nowMs sample s.snapshot)).snapshot.quality = .offline ↔ _
      rw [quality_observeFailure_iff hnet, if_neg Bool.false_ne_true, ← Nat.not_lt]
      exact not_congr (and_iff_right hoffline)
    | true =>
      show ¬ (gradeSuccess config s.snapshot.quality s.consecutiveGoodSamples
        (rescore (computeScore (aggregated sample (succeeded 0 sample s.snapshot)))
          (succeeded nowMs sample (noteSample nowMs sample s.snapshot)))).snapshot.quality = .offline ↔ _
      have hzero : (succeeded nowMs sample (noteSample nowMs sample s.snapshot)).score = 0 :=
        h.score_eq hnone
      rw [rescore_of_zero hzero, h.count_eq hnone, if_pos rfl]
      -- the score starts from zero, since there was no network
      set current : QualitySnapshot :=
        { succeeded nowMs sample (noteSample nowMs sample s.snapshot) with
          score := scoreFromZero sample s }
      have hiff : (gradeSuccess config current.quality 0 current).snapshot.quality = .offline ↔ _ :=
        quality_gradeSuccess_iff hnet (le_max_left _ _)
      refine (not_congr hiff).trans ?_
      have hcurrent : current.quality = .offline := hoffline
      rw [and_iff_right hcurrent]
      show ¬ (_ ≤ scoreFromZero sample s ∧ _ ≤ scoreFromZero sample s ∧ _) ↔ _
      omega
  · -- the prober has a network, and no verdict of `Offline` to leave
    have hquality : s.snapshot.quality ≠ .offline := mt h.offline_iff.mp hnone
    exact iff_of_true (quality_graded_ne_offline success hnet hquality) fun hnone' => absurd hnone' hnone

/-- A sample that leaves `Offline` where it has to keeps the invariant. -/
theorem OfflineInv.observeSample (h : OfflineInv s) (success : Bool)
    (hleaves : LeavesOffline config s (.observeSample nowMs success sample)) :
    OfflineInv (observeSample config nowMs success sample s).1 := by
  have hoffline : OfflineIffNone (graded config nowMs success sample s) :=
    (offlineIffNone_graded_iff h success).mpr hleaves
  have hgraded : OfflineInv (graded config nowMs success sample s) := by
    refine ⟨hoffline, fun hnone => ?_, fun hnone => ?_⟩
    · rw [network_graded] at hnone
      exact (graded_of_none success hnone).2.1
    · rw [network_graded] at hnone
      exact (graded_of_none success hnone).2.2
  unfold Prober.observeSample
  dsimp only
  split_ifs
  · exact ⟨hgraded.offline_iff, hgraded.score_eq, hgraded.count_eq⟩
  · exact ⟨hgraded.offline_iff, hgraded.score_eq, hgraded.count_eq⟩

/-- Any other sample breaks it. -/
theorem not_offlineIffNone_observeSample (h : OfflineInv s) (success : Bool)
    (hstays : ¬ LeavesOffline config s (.observeSample nowMs success sample)) :
    ¬ OfflineIffNone (observeSample config nowMs success sample s).1 := by
  have hgraded : ¬ OfflineIffNone (graded config nowMs success sample s) :=
    mt (offlineIffNone_graded_iff h success).mp hstays
  unfold Prober.observeSample
  dsimp only
  split_ifs
  · exact hgraded
  · exact hgraded

theorem OfflineInv.apply {op : Op} (h : OfflineInv s) (hleaves : LeavesOffline config s op) :
    OfflineInv (apply config s op) := by
  cases op with
  | observeSample nowMs success sample => exact h.observeSample success hleaves
  | beginProbe nowMs => exact ⟨h.offline_iff, h.score_eq, h.count_eq⟩
  | onNetworkChange nowMs networkEpoch net =>
    refine ⟨?_, fun hnone => if_pos hnone, fun _ => rfl⟩
    show (if net = .none then NetworkQuality.offline else .unknown) = .offline ↔ net = .none
    split_ifs with hnet
    · exact iff_of_true rfl hnet
    · exact iff_of_false (by decide) hnet

end

/-- **`Offline` means no network**, in every state of a run, exactly if every sample that reports a
network to a prober without one is enough to leave `Offline`. -/
theorem forall_offlineIffNone_iff (config : Config) (ops : List Op) :
    (∀ before after, ops = before ++ after → OfflineIffNone (session config before)) ↔
      ∀ before op after, ops = before ++ op :: after →
        LeavesOffline config (session config before) op := by
  have hinit : OfflineInv {} := 
    ⟨iff_of_false (by decide) (by decide), fun hnone => by simp at hnone, fun _ => rfl⟩
  refine Transition.forall_prefix_foldl_iff (fun s h => h.offline_iff) (fun s op h => h.apply)
    (fun s op h hstays => ?_) hinit
  cases op with
  | observeSample nowMs success sample => exact not_offlineIffNone_observeSample h success hstays
  | beginProbe nowMs => exact absurd trivial hstays
  | onNetworkChange nowMs networkEpoch net => exact absurd trivial hstays

/-- A failure on a network that has come back, and a success. -/
theorem offline_on_wifi : ¬ OfflineIffNone (session {}
    [.onNetworkChange 1 1 .none, .observeSample 2 false { net := .wifi },
      .observeSample 3 true { rttMs := 30, net := .wifi }]) := by
  unfold OfflineIffNone
  decide +kernel

end Prober

end AsterNet
