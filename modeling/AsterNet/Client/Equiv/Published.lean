import AsterNet.Client.Equiv.Epochs

/-!
# The published quality

* `goesUp_iff_of_run`: along a run the published quality goes up, by network epoch and samples, if and
  only if no publication of the last millisecond's snapshot comes after that of a later one.

A snapshot was taken of the prober, whose epoch, samples and clock reading only go up (`UpTo`), so any two
snapshots that were taken are in order (`Chain`).
-/

namespace AsterNet

namespace Client

namespace Threads

open Transition

variable {ι : Type} [DecidableEq ι] {m m' : Machine ι} {t : ι} {a : Act ι}

/-- The second snapshot is of a later network, or of the same one with as many samples at least. -/
def GoesUp (a b : QualitySnapshot) : Prop :=
  a.networkEpoch < b.networkEpoch ∨ a.networkEpoch = b.networkEpoch ∧ a.samples ≤ b.samples

/-- The published quality goes up between any two states of a run. -/
def QualityGoesUp (start : Machine ι) (acts : List (Act ι)) : Prop :=
  ∀ before middle after u v, acts = before ++ middle ++ after → Run Steps start before u →
    Run Steps u middle v → GoesUp u.lastQuality v.lastQuality

/-- The snapshot a step is to publish. -/
def Machine.publication (m : Machine ι) : Act ι → Option QualitySnapshot
  | .publish t =>
    match m.phase t with
    | .publishing snapshot => some snapshot
    | _ => none
  | _ => none

/-- A publication does not come after one with more samples in the same epoch and millisecond. -/
def InOrder (m : Machine ι) (a : Act ι) : Prop :=
  ∀ snapshot ∈ m.publication a, snapshot.networkEpoch = m.lastQuality.networkEpoch →
    snapshot.lastSampleMs = m.lastQuality.lastSampleMs → m.lastQuality.samples ≤ snapshot.samples

instance inOrderDecidable (m : Machine ι) (a : Act ι) : Decidable (InOrder m a) :=
  inferInstanceAs (Decidable (∀ snapshot ∈ m.publication a, _))

/-! ### Snapshots in the order they were taken -/

/-- The second snapshot was taken no earlier. -/
def UpTo (a b : QualitySnapshot) : Prop :=
  a.networkEpoch < b.networkEpoch ∨
    a.networkEpoch = b.networkEpoch ∧ a.samples ≤ b.samples ∧ a.lastSampleMs ≤ b.lastSampleMs

theorem UpTo.refl (a : QualitySnapshot) : UpTo a a := .inr ⟨rfl, le_rfl, le_rfl⟩

theorem UpTo.trans {a b c : QualitySnapshot} (hab : UpTo a b) (hbc : UpTo b c) : UpTo a c := by
  unfold UpTo at *
  omega

theorem goesUp_refl (a : QualitySnapshot) : GoesUp a a := .inr ⟨rfl, le_rfl⟩

theorem goesUp_trans {a b c : QualitySnapshot} (hab : GoesUp a b) (hbc : GoesUp b c) : GoesUp a c := by
  unfold GoesUp at *
  omega

/-- The snapshot a network change is to publish. -/
def ChangeStage.after : ChangeStage → Option QualitySnapshot
  | .begun => none
  | .bumped _ => none
  | .probed _ after => some after
  | .pooled _ after => some after
  | .resolved after => some after
  | .told after => some after

/-- The snapshot a thread is to publish, or has published. -/
def Phase.held : Phase → Option QualitySnapshot
  | .measured _ after => some after
  | .changing _ _ stage => stage.after
  | .migrating _ after => some after
  | .migrated _ after => some after
  | .publishing snapshot => some snapshot
  | .delivering snapshot => some snapshot
  | _ => none

/-- The last published snapshot and those that are to be published. -/
def Machine.held (m : Machine ι) : Set QualitySnapshot :=
  {snapshot | snapshot = m.lastQuality ∨ ∃ t, (m.phase t).held = some snapshot}

/-- The snapshots that are held are in order, and the prober is past them. -/
structure Chain (m : Machine ι) : Prop where
  clock : m.prober.snapshot.lastSampleMs ≤ m.clockMs
  current : ∀ snapshot ∈ m.held, UpTo snapshot m.prober.snapshot
  ordered : ∀ s₁ ∈ m.held, ∀ s₂ ∈ m.held, UpTo s₁ s₂ ∨ UpTo s₂ s₁

omit [DecidableEq ι] in
theorem mem_held_of_phase {q : Phase} {snapshot : QualitySnapshot} (hphase : m.phase t = q)
    (hheld : q.held = some snapshot) : snapshot ∈ m.held :=
  .inr ⟨t, by rw [hphase, hheld]⟩

/-- What holds of all that is held holds after a thread has moved on. -/
theorem forall_held_goto {m₁ : Machine ι} {p : Phase} {P : QualitySnapshot → Prop}
    (hold : ∀ sn ∈ m.held, P sn) (hphases : m₁.phase = m.phase) (hlast : P m₁.lastQuality)
    (hp : ∀ sn, p.held = some sn → P sn) : ∀ sn ∈ (m₁.goto t p).held, P sn := by
  rintro sn (rfl | ⟨u, hu⟩)
  · exact hlast
  · rcases eq_or_ne u t with rfl | hne
    · rw [Machine.goto_phase_self] at hu
      exact hp sn hu
    · rw [Machine.goto_phase_of_ne m₁ hne, hphases] at hu
      exact hold sn (.inr ⟨u, hu⟩)

/-- What is held was held before, or was just taken of the prober. -/
theorem held_of_stepped (hs : Stepped m a m') :
    ∀ sn ∈ m'.held, sn ∈ m.held ∨ sn = m'.prober.snapshot := by
  have hold : ∀ sn ∈ m.held, sn ∈ m.held ∨ sn = m'.prober.snapshot := fun _ => .inl
  -- `last_quality_` is one of the snapshots held
  have hlast : m.lastQuality ∈ m.held := .inl rfl
  have hkept : ∀ {t : ι} {q : Phase} {after : QualitySnapshot}, m.phase t = q → q.held = some after →
      ∀ sn, some after = some sn → sn ∈ m.held ∨ sn = m'.prober.snapshot := by
    rintro t q after hphase hq sn ⟨⟩
    exact .inl (mem_held_of_phase hphase hq)
  -- a snapshot is taken only when a request ends and when the prober is reset
  cases hs with
  | ticked ms => exact hold
  | looked cache activeLookups => exact hold
  | entered t req policy startedMs mutex hphase hlock =>
    exact forall_held_goto hold rfl (.inl hlast) (by simp [Phase.held])
  | qualityRead t req policy startedMs hphase =>
    exact forall_held_goto hold rfl (.inl hlast) (by simp [Phase.held])
  | epochRead t req policy startedMs before hphase =>
    exact forall_held_goto hold rfl (.inl hlast) (by simp [Phase.held])
  | asked t out op hphase => exact hold
  | acquired t out order origin hphase huse =>
    exact forall_held_goto hold rfl (.inl hlast) (by simp [Phase.held])
  | released t out success hphase => exact hold
  | reported t out order ip success rttMs hphase => exact hold
  | observed t out success rttMs hphase => exact hold
  | measured t out hphase =>
    refine forall_held_goto hold rfl (.inl hlast) fun sn hsn => ?_
    exact .inr (Option.some.inj hsn).symm
  | left t before after hphase =>
    split_ifs
    · exact forall_held_goto hold rfl (.inl hlast) (hkept hphase rfl)
    · exact forall_held_goto hold rfl (.inl hlast) (by simp [Phase.held])
  | changed t net mutex hphase hlock =>
    exact forall_held_goto hold rfl (.inl hlast) (by simp [Phase.held, ChangeStage.after])
  | bumped t net before hphase =>
    exact forall_held_goto hold rfl (.inl hlast) (by simp [Phase.held, ChangeStage.after])
  | proberReset t net before epoch hphase =>
    refine forall_held_goto hold rfl (.inr rfl) fun sn hsn => ?_
    exact .inr (Option.some.inj hsn).symm
  | poolReset t net before epoch after hphase =>
    exact forall_held_goto hold rfl (.inl hlast) (hkept hphase rfl)
  | resolverReset t net before epoch after hphase =>
    exact forall_held_goto hold rfl (.inl hlast) (hkept hphase rfl)
  | resolverTold t net before after hphase =>
    exact forall_held_goto hold rfl (.inl hlast) (hkept hphase rfl)
  | unlocked t net before after hphase =>
    exact forall_held_goto hold rfl (.inl hlast) (hkept hphase rfl)
  | migrateBegun t before after hphase =>
    exact forall_held_goto hold rfl (.inl hlast) (hkept hphase rfl)
  | migrateEnded t result before after hphase =>
    split_ifs
    · exact forall_held_goto hold rfl (.inl hlast) (hkept hphase rfl)
    · exact forall_held_goto hold rfl (.inl hlast) (by simp [Phase.held])
  | subscribed t mutex hphase hlock =>
    refine forall_held_goto hold rfl (.inl hlast) fun sn hsn => ?_
    obtain rfl := Option.some.inj hsn
    exact .inl hlast
  | refused t snapshot mutex hphase hlock hrefuses =>
    exact forall_held_goto hold rfl (.inl hlast) (by simp [Phase.held])
  | published t snapshot mutex hphase hlock haccepts =>
    exact forall_held_goto hold rfl (hkept hphase rfl _ rfl) (hkept hphase rfl)
  | delivered t snapshot hphase =>
    exact forall_held_goto hold rfl (.inl hlast) (by simp [Phase.held])

/-- The prober goes on, and no further than the clock. -/
theorem prober_of_stepped (h : Inv m) (hclock : m.prober.snapshot.lastSampleMs ≤ m.clockMs)
    (hs : Stepped m a m') :
    UpTo m.prober.snapshot m'.prober.snapshot ∧ m'.prober.snapshot.lastSampleMs ≤ m'.clockMs := by
  cases hs with
  | ticked ms =>
    refine ⟨.refl _, ?_⟩
    show m.prober.snapshot.lastSampleMs ≤ ((m.clockMs + ms : ℕ) : ℤ)
    omega
  | observed t out success rttMs hphase =>
    obtain ⟨hepoch, hsamples, hsample⟩ :=
      Prober.counted_observeSample {} m.clockMs success { rttMs } m.prober
    refine ⟨.inr ⟨hepoch.symm, ?_, ?_⟩, hsample.le⟩
    · exact (Nat.le_succ _).trans hsamples.ge
    · exact hclock.trans hsample.ge
  | proberReset t net before epoch hphase =>
    -- a later epoch, whose prober has no sample yet
    exact ⟨.inl (h.changing hphase).2, Int.natCast_nonneg _⟩
  | _ => exact ⟨.refl _, hclock⟩

/-- **One step keeps the snapshots in order.** -/
theorem chain_of_stepped (h : Inv m) (hc : Chain m) (hs : Stepped m a m') : Chain m' := by
  obtain ⟨hup, hclock⟩ := prober_of_stepped h hc.clock hs
  have hcurrent : ∀ sn ∈ m'.held, UpTo sn m'.prober.snapshot := by
    intro sn hsn
    rcases held_of_stepped hs sn hsn with hold | rfl
    · exact (hc.current sn hold).trans hup
    · exact .refl _
  refine ⟨hclock, hcurrent, fun s₁ h₁ s₂ h₂ => ?_⟩
  rcases held_of_stepped hs s₁ h₁ with hold₁ | rfl
  · rcases held_of_stepped hs s₂ h₂ with hold₂ | rfl
    · exact hc.ordered s₁ hold₁ s₂ hold₂
    · exact .inl (hcurrent s₁ h₁)
  · exact .inr (hcurrent s₂ h₂)

omit [DecidableEq ι] in
theorem chain_init (config : ClientConfig) (dnsConfig : Dns.Config) (maxOrigins startMs : ℕ) :
    Chain (init ι config dnsConfig maxOrigins startMs) := by
  have hheld : ∀ sn ∈ (init ι config dnsConfig maxOrigins startMs).held, sn = {} := by
    rintro sn (rfl | ⟨t, ht⟩)
    · rfl
    · cases ht
  refine ⟨Int.natCast_nonneg _, fun sn hsn => ?_, fun s₁ h₁ s₂ h₂ => ?_⟩
  · rw [hheld sn hsn]
    exact .refl _
  · rw [hheld s₁ h₁, hheld s₂ h₂]
    exact .inl (.refl _)

/-! ### Publications -/

theorem UpTo.goesUp {a b : QualitySnapshot} (h : UpTo a b) : GoesUp a b :=
  h.imp_right fun hsame => ⟨hsame.1, hsame.2.1⟩

omit [DecidableEq ι] in
theorem inOrder_publish_iff {snapshot : QualitySnapshot} (hphase : m.phase t = .publishing snapshot) :
    InOrder m (.publish t) ↔
      (snapshot.networkEpoch = m.lastQuality.networkEpoch →
        snapshot.lastSampleMs = m.lastQuality.lastSampleMs →
        m.lastQuality.samples ≤ snapshot.samples) := by
  simp [InOrder, Machine.publication, hphase]

omit [DecidableEq ι] in
theorem inOrder_of_publication_eq_none (hnone : m.publication a = none) : InOrder m a := by
  simp [InOrder, hnone]

/-- A step takes the published quality back if and only if it is a publication out of order. -/
theorem goesUp_iff_inOrder (h : Inv m) (hc : Chain m) (hs : Stepped m a m') :
    GoesUp m.lastQuality m'.lastQuality ↔ InOrder m a := by
  have hlast : m.lastQuality ∈ m.held := .inl rfl
  cases hs with
  | proberReset t net before epoch hphase =>
    refine iff_of_true (UpTo.goesUp ((hc.current _ hlast).trans (.inl ?_)))
      (inOrder_of_publication_eq_none rfl)
    exact (h.changing hphase).2
  | refused t snapshot mutex hphase hlock hrefuses =>
    refine iff_of_true (goesUp_refl _) ((inOrder_publish_iff hphase).mpr fun hepoch hms => ?_)
    rcases hrefuses with hlt | ⟨-, hlt⟩
    · omega
    · omega
  | published t snapshot mutex hphase hlock haccepts =>
    rw [inOrder_publish_iff hphase]
    show GoesUp m.lastQuality snapshot ↔ _
    have hordered := hc.ordered _ hlast snapshot (mem_held_of_phase hphase rfl)
    unfold Machine.Refuses at haccepts
    unfold GoesUp
    unfold UpTo at hordered
    omega
  -- the others publish nothing
  | _ => exact iff_of_true (goesUp_refl _) (inOrder_of_publication_eq_none rfl)

/-- **When the published quality goes back.** -/
theorem goesUp_iff_of_run {config : ClientConfig} {dnsConfig : Dns.Config} {maxOrigins startMs : ℕ}
    {acts : List (Act ι)} (hrun : Run Steps (init ι config dnsConfig maxOrigins startMs) acts m) :
    QualityGoesUp (init ι config dnsConfig maxOrigins startMs) acts ↔
      StepsMeet Steps InOrder (init ι config dnsConfig maxOrigins startMs) acts m := by
  have hinit : Inv (init ι config dnsConfig maxOrigins startMs) ∧
      Chain (init ι config dnsConfig maxOrigins startMs) :=
    ⟨inv_init, chain_init config dnsConfig maxOrigins startMs⟩
  have hstep : ∀ (u : Machine ι) a v, Inv u ∧ Chain u → Steps u a v → Inv v ∧ Chain v :=
    fun _ _ _ h hs => ⟨inv_of_stepped h.1 hs.stepped, chain_of_stepped h.1 h.2 hs.stepped⟩
  unfold QualityGoesUp
  rw [forall_segment_iff (R := fun u v : Machine ι => GoesUp u.lastQuality v.lastQuality)
    (fun _ => goesUp_refl _) fun _ _ _ => goesUp_trans]
  rw [hrun.forall_step_iff_stepsMeet steps_deterministic
    (C := fun u a => ∀ v, Steps u a v → GoesUp u.lastQuality v.lastQuality)]
  constructor
  · intro hmeet
    refine (hmeet.imp (fun u a v h _ hs => hstep u a v h hs) (fun u a v h hup hs => ?_) hinit).1
    exact (goesUp_iff_inOrder h.1 h.2 hs.stepped).mp (hup v hs)
  · intro hmeet
    refine (hmeet.imp (fun u a v h _ hs => hstep u a v h hs) (fun u a v h horder _ w hs => ?_) hinit).1
    exact (goesUp_iff_inOrder h.1 h.2 hs.stepped).mpr horder

/-! ### Two publications in one millisecond -/

/-- A request whose lookup fails. -/
def fails (t : Bool) : List (Act Bool) :=
  begins t ++ [.use t (.resolve 1000), .use t (.observe false (-1)), .measure t]

/-- Two requests fail in one millisecond; what they know is not yet published. -/
def twoFail : List (Act Bool) := fails false ++ fails true ++ [.leave false, .leave true]

/-- The first one publishes first. -/
def inTurn : List (Act Bool) := twoFail ++ [.publish false, .deliver false, .publish true, .deliver true]

theorem goesUp_iff_of_run_inTurn :
    QualityGoesUp start inTurn ∧ (after inTurn).lastQuality.samples = 2 := by
  obtain ⟨m, hm⟩ := Option.isSome_iff_exists.mp (show (inTurn.foldlM
    (fun m a => if InOrder m a then m.act a else none) start).isSome = true by decide +kernel)
  have hmeet : StepsMeet Steps InOrder start inTurn m := StepsMeet.of_foldlM (f := Machine.act) hm
  exact ⟨(goesUp_iff_of_run hmeet.run).mpr hmeet, by decide +kernel⟩

/-- The second one publishes first. -/
def overtaken : List (Act Bool) := twoFail ++ [.publish true]

theorem exists_run_goesBack : ∃ before middle u v, Run Steps start before u ∧ Run Steps u middle v ∧
    v.lastQuality.networkEpoch = u.lastQuality.networkEpoch ∧
    v.lastQuality.lastSampleMs = u.lastQuality.lastSampleMs ∧
    v.lastQuality.samples < u.lastQuality.samples ∧ ¬ QualityGoesUp start (before ++ middle) := by
  have hbefore : Run Steps start overtaken (after overtaken) := run_after (by decide +kernel)
  have hmiddle : Run Steps (after overtaken) [.publish false] (after (overtaken ++ [.publish false])) :=
    .single (steps_after (by decide +kernel))
  refine ⟨overtaken, [.publish false], _, _, hbefore, hmiddle, by decide +kernel, by decide +kernel,
    by decide +kernel, fun hup => ?_⟩
  have hback := hup overtaken [.publish false] [] _ _ (List.append_nil _).symm hbefore hmiddle
  rcases hback with hlt | ⟨-, hle⟩
  · exact absurd hlt (by decide +kernel)
  · exact absurd hle (by decide +kernel)

end Threads

end Client

end AsterNet
