import AsterNet.Client.Equiv.Published

/-!
# The quality the resolver is told

* `delivered_iff_of_run`: the resolver has the published quality whenever nobody is about to tell it one,
  if and only if no delivery that was overtaken by a publication is the last one.

A network change tells the resolver under `lifecycle_mutex_`, so what it tells is still the published
quality then (`Told`); `publish_quality_change` gives the lock back first.
-/

namespace AsterNet

namespace Client

namespace Threads

open Transition

variable {ι : Type} [DecidableEq ι] {m m' : Machine ι} {t : ι} {a : Act ι}

/-- The thread is not between setting the published quality and telling the resolver. -/
def Phase.Delivered : Phase → Prop
  | .delivering _ => False
  | .changing _ _ (.probed _ _) => False
  | .changing _ _ (.pooled _ _) => False
  | .changing _ _ (.resolved _) => False
  | _ => True

instance deliveredDecidable : DecidablePred Phase.Delivered
  | .delivering _ => .isFalse id
  | .changing _ _ .begun => .isTrue trivial
  | .changing _ _ (.bumped _) => .isTrue trivial
  | .changing _ _ (.probed _ _) => .isFalse id
  | .changing _ _ (.pooled _ _) => .isFalse id
  | .changing _ _ (.resolved _) => .isFalse id
  | .changing _ _ (.told _) => .isTrue trivial
  | .idle => .isTrue trivial
  | .entered _ _ _ => .isTrue trivial
  | .ready _ _ _ _ => .isTrue trivial
  | .requesting _ => .isTrue trivial
  | .measured _ _ => .isTrue trivial
  | .migrating _ _ => .isTrue trivial
  | .migrated _ _ => .isTrue trivial
  | .publishing _ => .isTrue trivial

/-- Where nobody is about to tell the resolver, it has the published quality. -/
def ResolverCurrent (m : Machine ι) : Prop :=
  (∀ t, (m.phase t).Delivered) → m.resolver.quality = m.lastQuality

/-- The snapshot a step is to deliver outside the lock, and the thread that does so. -/
def Machine.delivery (m : Machine ι) : Act ι → Option (ι × QualitySnapshot)
  | .deliver t =>
    match m.phase t with
    | .delivering snapshot => some (t, snapshot)
    | _ => none
  | _ => none

/-- A delivery after which nobody is about to tell the resolver is of what is published then. -/
def NotOvertaken (m : Machine ι) (a : Act ι) : Prop :=
  ∀ d ∈ m.delivery a, (∀ u, u ≠ d.1 → (m.phase u).Delivered) → d.2 = m.lastQuality

instance notOvertakenDecidable [Fintype ι] (m : Machine ι) (a : Act ι) : Decidable (NotOvertaken m a) :=
  inferInstanceAs (Decidable (∀ d ∈ m.delivery a, _))

/-! ### One step -/

/-- What a network change is to tell is what is published. -/
def Phase.TellsLast : Phase → QualitySnapshot → Prop
  | .changing _ _ stage, lastQuality => ∀ sn ∈ stage.after, sn = lastQuality
  | _, _ => True

/-- What a step that meets `NotOvertaken` preserves. -/
structure Told (m : Machine ι) : Prop where
  current : ResolverCurrent m
  phases : ∀ t, (m.phase t).TellsLast m.lastQuality

theorem Phase.tellsLast_of_free {p : Phase} (hfree : p.mode = .free) (q : QualitySnapshot) :
    p.TellsLast q := by
  cases p with
  | changing net before stage => cases hfree
  | _ => exact trivial

/-- A thread moves on, and neither the published quality nor the resolver's changes. -/
theorem Told.goto (h : Told m) {m₁ : Machine ι} {p q : Phase} (hphase : m.phase t = q)
    (hphases : m₁.phase = m.phase) (hlast : m₁.lastQuality = m.lastQuality)
    (hquality : m₁.resolver.quality = m.resolver.quality) (hdelivered : p.Delivered → q.Delivered)
    (htells : p.TellsLast m.lastQuality) : Told (m₁.goto t p) := by
  refine ⟨fun hall => ?_, ?_⟩
  · show m₁.resolver.quality = m₁.lastQuality
    rw [hquality, hlast]
    refine h.current fun u => ?_
    have hu := hall u
    rcases eq_or_ne u t with rfl | hne
    · rw [Machine.goto_phase_self] at hu
      rw [hphase]
      exact hdelivered hu
    · rwa [Machine.goto_phase_of_ne m₁ hne, hphases] at hu
  · show ∀ u, ((m₁.goto t p).phase u).TellsLast m₁.lastQuality
    rw [hlast]
    refine Machine.forall_phase_goto (P := fun p => p.TellsLast m.lastQuality) (fun u _ => ?_) htells
    rw [hphases]
    exact h.phases u

/-- A thread is about to tell the resolver what it has just published. -/
theorem told_of_not_delivered {m₁ : Machine ι} {p : Phase} (hp : ¬ p.Delivered)
    (hothers : ∀ u, u ≠ t → (m₁.phase u).TellsLast m₁.lastQuality) (htells : p.TellsLast m₁.lastQuality) :
    Told (m₁.goto t p) := by
  refine ⟨fun hall => ?_,
    Machine.forall_phase_goto (P := fun p => p.TellsLast m₁.lastQuality) hothers htells⟩
  have ht := hall t
  rw [Machine.goto_phase_self] at ht
  exact absurd ht hp

/-- **One step that is not an overtaken delivery keeps the resolver current.** -/
theorem told_of_stepped (h : Inv m) (htold : Told m) (hcond : NotOvertaken m a) (hs : Stepped m a m') :
    Told m' := by
  have hstage : ∀ {t net before stage after}, m.phase t = .changing net before stage →
      stage.after = some after → after = m.lastQuality := by
    intro t net before stage after hphase hafter
    have htells := htold.phases t
    rw [hphase] at htells
    exact htells after hafter
  cases hs with
  | ticked ms => exact ⟨htold.current, htold.phases⟩
  | looked cache activeLookups => exact ⟨htold.current, htold.phases⟩
  | entered t req policy startedMs mutex hphase hlock =>
    exact htold.goto hphase rfl rfl rfl id trivial
  | qualityRead t req policy startedMs hphase => exact htold.goto hphase rfl rfl rfl id trivial
  | epochRead t req policy startedMs before hphase => exact htold.goto hphase rfl rfl rfl id trivial
  | asked t out op hphase => exact htold
  | acquired t out order origin hphase huse => exact htold.goto hphase rfl rfl rfl id trivial
  | released t out success hphase => exact ⟨htold.current, htold.phases⟩
  | reported t out order ip success rttMs hphase =>
    obtain ⟨health, -, heq⟩ := Dns.reportConnectionResult_frame m.clockMs order
      out.context.request.host ip out.context.networkEpoch success rttMs m.resolver
    rw [heq]
    exact ⟨htold.current, htold.phases⟩
  | observed t out success rttMs hphase => exact ⟨htold.current, htold.phases⟩
  | measured t out hphase => exact htold.goto hphase rfl rfl rfl id trivial
  | left t before after hphase =>
    split_ifs
    · exact htold.goto hphase rfl rfl rfl id trivial
    · exact htold.goto hphase rfl rfl rfl id trivial
  | changed t net mutex hphase hlock =>
    exact htold.goto hphase rfl rfl rfl id (by simp [Phase.TellsLast, ChangeStage.after])
  | bumped t net before hphase =>
    exact htold.goto hphase rfl rfl rfl id (by simp [Phase.TellsLast, ChangeStage.after])
  | proberReset t net before epoch hphase =>
    -- nobody else holds the lock
    have hexclusive : m.modes t = .exclusive := by rw [Machine.modes, hphase]; rfl
    refine told_of_not_delivered id (fun u hne => ?_) fun sn hsn => (Option.some.inj hsn).symm
    exact Phase.tellsLast_of_free (h.tied.free_of_exclusive hexclusive hne) _
  | poolReset t net before epoch after hphase =>
    exact htold.goto hphase rfl rfl rfl id fun sn hsn => hstage hphase hsn
  | resolverReset t net before epoch after hphase =>
    exact htold.goto hphase rfl rfl rfl id fun sn hsn => hstage hphase hsn
  | resolverTold t net before after hphase =>
    have hafter : after = m.lastQuality := hstage hphase rfl
    refine ⟨fun _ => hafter, Machine.forall_phase_goto (P := fun p => p.TellsLast m.lastQuality)
      (fun u _ => htold.phases u) fun sn hsn => hstage hphase hsn⟩
  | unlocked t net before after hphase => exact htold.goto hphase rfl rfl rfl id trivial
  | migrateBegun t before after hphase => exact htold.goto hphase rfl rfl rfl id trivial
  | migrateEnded t result before after hphase =>
    split_ifs
    · exact htold.goto hphase rfl rfl rfl id trivial
    · exact htold.goto hphase rfl rfl rfl id trivial
  | subscribed t mutex hphase hlock => exact htold.goto hphase rfl rfl rfl id trivial
  | refused t snapshot mutex hphase hlock hrefuses => exact htold.goto hphase rfl rfl rfl id trivial
  | published t snapshot mutex hphase hlock haccepts =>
    -- nobody holds the lock
    have hfree := (h.tied.lock hlock).2
    exact told_of_not_delivered id (fun u _ => Phase.tellsLast_of_free (hfree u) _) trivial
  -- a delivery counts only when it is the last one under way, and then nothing newer was published
  | delivered t snapshot hphase =>
    have hlast : (∀ u, u ≠ t → (m.phase u).Delivered) → snapshot = m.lastQuality :=
      hcond (t, snapshot) (by simp [Machine.delivery, hphase])
    refine ⟨fun hall => hlast fun u hne => ?_, Machine.forall_phase_goto
      (P := fun p => p.TellsLast m.lastQuality) (fun u _ => htold.phases u) trivial⟩
    have hu := hall u
    rwa [Machine.goto_phase_of_ne _ hne] at hu

/-- An overtaken delivery leaves the resolver on an older quality. -/
theorem not_resolverCurrent_of_steps (hcond : ¬ NotOvertaken m a) (hs : Steps m a m') :
    ¬ ResolverCurrent m' := by
  intro hcurrent
  refine hcond fun d hd hothers => ?_
  unfold Machine.delivery at hd
  split at hd
  · case h_1 t =>
    split at hd
    · case h_1 snapshot hphase =>
      obtain rfl := Option.some.inj hd
      rw [Steps, Machine.act, hphase] at hs
      obtain rfl := Option.some.inj hs
      exact hcurrent (Machine.forall_phase_goto hothers trivial)
    · cases hd
  · cases hd

omit [DecidableEq ι] in
theorem told_init (config : ClientConfig) (dnsConfig : Dns.Config) (maxOrigins startMs : ℕ) :
    Told (init ι config dnsConfig maxOrigins startMs) :=
  ⟨fun _ => rfl, fun _ => trivial⟩

/-- **When the resolver ends with the published quality.** -/
theorem delivered_iff_of_run {config : ClientConfig} {dnsConfig : Dns.Config} {maxOrigins startMs : ℕ}
    {acts : List (Act ι)} (hrun : Run Steps (init ι config dnsConfig maxOrigins startMs) acts m) :
    (∀ acts₁ acts₂ u, acts = acts₁ ++ acts₂ →
        Run Steps (init ι config dnsConfig maxOrigins startMs) acts₁ u → ResolverCurrent u) ↔
      StepsMeet Steps NotOvertaken (init ι config dnsConfig maxOrigins startMs) acts m :=
  hrun.forall_prefix_iff_stepsMeet (I := fun m => Inv m ∧ Told m) steps_deterministic
    (fun _ h => h.2.current)
    (fun _ _ _ h hcond hs => ⟨inv_of_stepped h.1 hs.stepped, told_of_stepped h.1 h.2 hcond hs.stepped⟩)
    (fun _ _ _ _ hcond hs => not_resolverCurrent_of_steps hcond hs)
    ⟨inv_init, told_init config dnsConfig maxOrigins startMs⟩

/-! ### Two network changes -/

/-- A network change up to the locked section of its publication. -/
def publishes (t : Bool) (net : Network) : List (Act Bool) :=
  changes t net ++ [.beginMigrate t, .endMigrate t .errUnsupported, .publish t]

/-- The network is lost and comes back, one after the other. -/
def lostAndBack : List (Act Bool) :=
  publishes false .none ++ [.deliver false] ++ publishes true .wifi ++ [.deliver true]

theorem delivered_iff_of_run_lostAndBack :
    (∀ acts₁ acts₂ u, lostAndBack = acts₁ ++ acts₂ → Run Steps start acts₁ u → ResolverCurrent u) ∧
      (after lostAndBack).resolver.quality.network = .wifi := by
  obtain ⟨m, hm⟩ := Option.isSome_iff_exists.mp (show (lostAndBack.foldlM
    (fun m a => if NotOvertaken m a then m.act a else none) start).isSome = true by decide +kernel)
  have hmeet : StepsMeet Steps NotOvertaken start lostAndBack m :=
    StepsMeet.of_foldlM (f := Machine.act) hm
  exact ⟨(delivered_iff_of_run hmeet.run).mpr hmeet, by decide +kernel⟩

/-- The loss is delivered after the network came back. -/
def lateLoss : List (Act Bool) :=
  publishes false .none ++ publishes true .wifi ++ [.deliver true, .deliver false]

theorem exists_run_offline : ∃ acts m, Run Steps start acts m ∧ (∀ t, (m.phase t).Delivered) ∧
    m.lastQuality.network = .wifi ∧ m.lastQuality.quality = .unknown ∧
    m.resolver.quality.networkEpoch < m.lastQuality.networkEpoch ∧
    m.resolver.quality.quality = .offline ∧ ¬ ResolverCurrent m := by
  have hdelivered : ∀ t, ((after lateLoss).phase t).Delivered := by decide +kernel
  refine ⟨lateLoss, after lateLoss, run_after (by decide +kernel), hdelivered, by decide +kernel,
    by decide +kernel, by decide +kernel, by decide +kernel, fun hcurrent => ?_⟩
  exact absurd (hcurrent hdelivered) (by decide +kernel)

end Threads

end Client

end AsterNet
