import AsterNet.Client.Equiv.Carries
import AsterNet.Client.Equiv.Threads

/-!
# Requests and network changes

* `agree_of_run`: whatever requests and network changes go on, a use of a component by a request carries
  the epoch the request read at its start, and this is the epoch of the client and of each component when
  the use is made; what the components keep was measured under their own epoch.

A request holds `lifecycle_mutex_` shared, so no network change is under way beside it
(`Inv.agree_of_requesting`).
-/

namespace AsterNet

namespace Client

namespace Threads

open Transition

variable {ι : Type} [DecidableEq ι] {m m' : Machine ι} {t : ι} {a : Act ι}

/-- A use is made under this epoch; an observation names none. -/
def Use.Carries (epoch : ℕ) : Use → Prop
  | .resolve _ networkEpoch _ => networkEpoch = epoch
  | .acquire _ origin => origin.networkEpoch = epoch
  | .engineRequest _ attempt => attempt.networkEpoch = epoch
  | .release lease _ => lease.valid = true → lease.origin.networkEpoch = epoch
  | .reportConnectionResult _ _ _ networkEpoch _ _ => networkEpoch = epoch
  | .observe _ _ => True

/-- The key of a pool entry for an origin under this epoch. -/
def IsPoolKey (epoch : ℕ) (key : Bytes) : Prop :=
  ∃ origin : Origin, key = ConnectionPool.keyFor origin ∧ origin.networkEpoch = epoch

/-- The key of a health entry under this epoch. -/
def IsHealthKey (epoch : ℕ) (key : Bytes) : Prop := ∃ host ip, key = Dns.healthKey host ip epoch

/-- What the components keep was measured under their own epoch. -/
structure Unmixed (m : Machine ι) : Prop where
  pool : ∀ key ∈ m.pool.entries, IsPoolKey m.pool.networkEpoch key
  health : ∀ key ∈ m.resolver.health, IsHealthKey m.resolver.lastNetworkEpoch key
  samples : m.prober.snapshot.samples = m.observedUnder.length
  observed : ∀ epoch ∈ m.observedUnder, epoch = m.prober.snapshot.networkEpoch

/-- The epoch of a request was the client's when it was read, and was not read again. -/
def ReadAtStart (start : Machine ι) (acts : List (Act ι)) (t : ι) (epoch : ℕ) : Prop :=
  ∃ before after u, acts = before ++ .readEpoch t :: after ∧ .readEpoch t ∉ after ∧
    Run Steps start before u ∧ u.networkEpoch = epoch

/-! ### One request -/

/-- All uses of a request carry what its locals carry. -/
theorem carries_use {out : Outgoing} {epoch : ℕ} (hout : out.Carries epoch) (op : Op) :
    (out.use op).Carries epoch := by
  cases op with
  | resolve timeoutMs => exact hout.context
  | acquire order => exact hout.context
  | engineRequest type connectHost dnsMs timeoutMs => exact hout.request
  | release success => exact hout.lease
  | reportConnectionResult order ip success rttMs => exact hout.context
  | observe success rttMs => trivial

omit [DecidableEq ι] in
/-- No network change is under way beside a request. -/
theorem Inv.agree_of_requesting (h : Inv m) {out : Outgoing} (hphase : m.phase t = .requesting out) :
    m.epochs.Agree out.context.networkEpoch := by
  have hshared : m.modes t = .shared := by rw [Machine.modes, hphase]; rfl
  have hagree := h.agree fun u hu => h.tied.not_shared_of_exclusive hu hshared
  rwa [(h.requesting hphase).context]

/-- A use is made by a request that is under way. -/
theorem exists_requesting_of_use {op : Op} (hs : Steps m (.use t op) m') :
    ∃ out, m.phase t = .requesting out := by
  rw [Steps, Machine.act] at hs
  split at hs
  · case h_1 out hphase => exact ⟨out, hphase⟩
  · cases hs

/-! ### The epoch of a request -/

theorem requesting_of_goto {u : ι} {p : Phase} {out : Outgoing}
    (hphase : (m.goto t p).phase u = .requesting out) (hp : p ≠ .requesting out) :
    m.phase u = .requesting out := by
  rcases eq_or_ne u t with rfl | hne
  · rw [Machine.goto_phase_self] at hphase
    exact absurd hphase hp
  · rwa [Machine.goto_phase_of_ne m hne] at hphase

/-- A request has its context from before, or has just read its epoch. -/
theorem requesting_cases (hs : Stepped m a m') {out : Outgoing} (hphase : m'.phase t = .requesting out) :
    (∃ out₀, m.phase t = .requesting out₀ ∧ out₀.context = out.context) ∨
      a = .readEpoch t ∧ out.context.networkEpoch = m.networkEpoch := by
  cases hs with
  | ticked ms => exact .inl ⟨out, hphase, rfl⟩
  | looked cache activeLookups => exact .inl ⟨out, hphase, rfl⟩
  | asked u out₁ op hphase₁ => exact .inl ⟨out, hphase, rfl⟩
  | released u out₁ success hphase₁ => exact .inl ⟨out, hphase, rfl⟩
  | reported u out₁ order ip success rttMs hphase₁ => exact .inl ⟨out, hphase, rfl⟩
  | observed u out₁ success rttMs hphase₁ => exact .inl ⟨out, hphase, rfl⟩
  | epochRead u req policy startedMs before hphase₁ =>
    rcases eq_or_ne t u with rfl | hne
    · rw [Machine.goto_phase_self] at hphase
      obtain rfl := Phase.requesting.inj hphase
      exact .inr ⟨rfl, rfl⟩
    · rw [Machine.goto_phase_of_ne _ hne] at hphase
      exact .inl ⟨out, hphase, rfl⟩
  | acquired u out₁ order origin hphase₁ huse =>
    rcases eq_or_ne t u with rfl | hne
    · rw [Machine.goto_phase_self] at hphase
      obtain rfl := Phase.requesting.inj hphase
      exact .inl ⟨out₁, hphase₁, rfl⟩
    · rw [Machine.goto_phase_of_ne _ hne] at hphase
      exact .inl ⟨out, hphase, rfl⟩
  | left u before after hphase₁ =>
    split_ifs at hphase
    · exact .inl ⟨out, requesting_of_goto hphase (by simp), rfl⟩
    · exact .inl ⟨out, requesting_of_goto hphase (by simp), rfl⟩
  | migrateEnded u result before after hphase₁ =>
    split_ifs at hphase
    · exact .inl ⟨out, requesting_of_goto hphase (by simp), rfl⟩
    · exact .inl ⟨out, requesting_of_goto hphase (by simp), rfl⟩
  -- the other steps leave a thread somewhere else
  | _ => exact .inl ⟨out, requesting_of_goto hphase (by simp), rfl⟩

theorem not_requesting_of_readEpoch (hs : Stepped m (.readEpoch t) m') (out : Outgoing) :
    m.phase t ≠ .requesting out := by
  cases hs with
  | epochRead u req policy startedMs before hphase =>
    rw [hphase]
    simp

theorem readAtStart_of_run {start : Machine ι} {acts : List (Act ι)} (hstart : ∀ t, start.phase t = .idle)
    (hrun : Run Steps start acts m) {out : Outgoing} (hphase : m.phase t = .requesting out) :
    ReadAtStart start acts t out.context.networkEpoch := by
  induction hrun generalizing out with
  | nil =>
    rw [hstart] at hphase
    cases hphase
  | @snoc m m' acts a hrun hs ih =>
    rcases requesting_cases hs.stepped hphase with ⟨out₀, hphase₀, hcontext⟩ | ⟨rfl, hepoch⟩
    · obtain ⟨before, after, u, rfl, hnot, hu, hepoch⟩ := ih hphase₀
      refine ⟨before, after ++ [a], u, by simp, ?_, hu, hepoch.trans (by rw [hcontext])⟩
      rw [List.mem_append, List.mem_singleton, not_or]
      refine ⟨hnot, ?_⟩
      rintro rfl
      exact not_requesting_of_readEpoch hs.stepped out₀ hphase₀
    · exact ⟨acts, [], m, rfl, List.not_mem_nil, hrun, hepoch.symm⟩

/-! ### What the components keep -/

/-- **One step keeps the measurements under their epoch.** -/
theorem unmixed_of_stepped (h : Inv m) (hmix : Unmixed m) (hs : Stepped m a m') : Unmixed m' := by
  cases hs with
  | acquired t out order origin hphase huse =>
    obtain ⟨hepoch, hkeys, -⟩ := ConnectionPool.acquire_frame order m.clockMs origin m.pool
    refine ⟨fun key hkey => ?_, hmix.health, hmix.samples, hmix.observed⟩
    show IsPoolKey (ConnectionPool.acquire order m.clockMs origin m.pool).2.networkEpoch key
    rw [hepoch]
    rcases hkeys key hkey with rfl | hkey
    · -- a new entry, under the epoch of the request
      refine ⟨origin, rfl, ?_⟩
      have hagree := h.agree_of_requesting hphase
      obtain ⟨-, rfl⟩ := Use.acquire.inj huse
      exact hagree.pool.symm
    · exact hmix.pool key hkey
  | released t out success hphase =>
    obtain ⟨hepoch, hkeys⟩ := ConnectionPool.release_frame m.clockMs out.lease success m.pool
    refine ⟨fun key hkey => ?_, hmix.health, hmix.samples, hmix.observed⟩
    show IsPoolKey (ConnectionPool.release m.clockMs out.lease success m.pool).networkEpoch key
    rw [hepoch]
    exact hmix.pool key (hkeys key hkey)
  | reported t out order ip success rttMs hphase =>
    obtain ⟨health, hkeys, heq⟩ := Dns.reportConnectionResult_frame m.clockMs order
      out.context.request.host ip out.context.networkEpoch success rttMs m.resolver
    rw [heq]
    refine ⟨hmix.pool, fun key hkey => ?_, hmix.samples, hmix.observed⟩
    -- the key is that of the reported address, or was there before
    rcases hkeys key hkey with rfl | hkey
    · have hagree := h.agree_of_requesting hphase
      exact ⟨_, ip, congrArg (Dns.healthKey _ _) hagree.resolver.symm⟩
    · exact hmix.health key hkey
  | observed t out success rttMs hphase =>
    have hcounted := Prober.counted_observeSample {} m.clockMs success { rttMs } m.prober
    have hagree := h.agree_of_requesting hphase
    refine ⟨hmix.pool, hmix.health, ?_, fun epoch hepoch => ?_⟩
    -- one more sample, and one more epoch in the list
    · show (Prober.observe {} m.clockMs success rttMs m.prober).1.snapshot.samples = _
      rw [List.length_append, ← hmix.samples]
      exact hcounted.samples_eq
    · refine Eq.trans ?_ hcounted.networkEpoch_eq.symm
      rcases List.mem_append.mp hepoch with hepoch | hepoch
      · exact hmix.observed epoch hepoch
      · rw [List.mem_singleton.mp hepoch]
        exact hagree.prober.symm
  | proberReset t net before epoch hphase =>
    exact ⟨hmix.pool, hmix.health, rfl, by simp [Machine.resetProber]⟩
  | poolReset t net before epoch after hphase =>
    refine ⟨fun key hkey => ?_, hmix.health, hmix.samples, hmix.observed⟩
    exact absurd hkey (AList.notMem_empty key)
  | resolverReset t net before epoch after hphase =>
    refine ⟨hmix.pool, fun key hkey => ?_, hmix.samples, hmix.observed⟩
    exact absurd hkey (AList.notMem_empty key)
  -- the other steps touch neither tables nor counters
  | _ => exact ⟨hmix.pool, hmix.health, hmix.samples, hmix.observed⟩

omit [DecidableEq ι] in
theorem unmixed_init (config : ClientConfig) (dnsConfig : Dns.Config) (maxOrigins startMs : ℕ) :
    Unmixed (init ι config dnsConfig maxOrigins startMs) where
  pool key hkey := absurd hkey (AList.notMem_empty key)
  health key hkey := absurd hkey (AList.notMem_empty key)
  samples := rfl
  observed := by simp [init]

/-! ### The program of a request -/

/-- Nothing is asked of the outside but where the epoch comes from. -/
theorem keeps_networkEpoch {σ : Type} (env : ClientEnv σ) (base : Request) :
    env.Keeps (fun _ => True) (fun epoch _ => ∃ s, (env.networkEpoch s).1 = epoch) base where
  pipeline := fun epoch => by constructor <;> intros <;> assumption
  nested := fun _ _ => trivial
  monotonicMs := fun _ _ => trivial
  destroyed := fun _ _ => trivial
  snapshot := fun _ _ => trivial
  nextRequestId := fun _ _ => trivial
  networkEpoch := fun s _ => ⟨s, rfl⟩
  reportMetrics := fun _ _ _ _ _ h => h
  publishQualityChange := fun _ _ _ h => h

/-- **No outcome crosses a network change.** -/
theorem agree_of_run {config : ClientConfig} {dnsConfig : Dns.Config} {maxOrigins startMs : ℕ}
    {acts : List (Act ι)} (hrun : Run Steps (init ι config dnsConfig maxOrigins startMs) acts m) :
    (∀ t op m', Steps m (.use t op) m' → ∃ out, m.phase t = .requesting out ∧
      ReadAtStart (init ι config dnsConfig maxOrigins startMs) acts t out.context.networkEpoch ∧
      (out.use op).Carries out.context.networkEpoch ∧ m.epochs.Agree out.context.networkEpoch) ∧
    Unmixed m ∧
    ∀ {σ : Type} (env : ClientEnv σ) (req : Request) (policy : ProtocolPolicy) (resp : Response)
      (w : World σ),
      (∀ e ∈ (requestWithPolicy env config req policy resp w).events, ∀ epoch, e.Carries req epoch) ∨
      ∃ s, ∀ e ∈ (requestWithPolicy env config req policy resp w).events,
        e.Carries req (env.networkEpoch s).1 := by
  -- the lock keeps all parts at one epoch, and the tables under it
  have hboth : Inv m ∧ Unmixed m :=
    hrun.invariant (I := fun m => Inv m ∧ Unmixed m)
      (fun _ _ _ h hs => ⟨inv_of_stepped h.1 hs.stepped, unmixed_of_stepped h.1 h.2 hs.stepped⟩)
      ⟨inv_init, unmixed_init config dnsConfig maxOrigins startMs⟩
  obtain ⟨h, hmix⟩ := hboth
  refine ⟨fun t op m' hs => ?_, hmix, fun {σ} env req policy resp w => ?_⟩
  · obtain ⟨out, hphase⟩ := exists_requesting_of_use hs
    have hagree := h.agree_of_requesting hphase
    have hout := h.requesting hphase
    rw [← hout.context] at hout
    exact ⟨out, hphase, readAtStart_of_run (fun _ => rfl) hrun hphase, carries_use hout op, hagree⟩
  -- in the pipeline the epoch is read once, if at all
  · rcases keeps_requestWithPolicy (keeps_networkEpoch env req) config policy resp w trivial
      with ⟨-, hevents⟩ | ⟨epoch, ⟨s, rfl⟩, hevents⟩
    · exact .inl hevents
    · exact .inr ⟨s, hevents⟩

/-! ### Two requests and a network change between them -/

/-- A client with default settings. -/
def start : Machine Bool := init Bool {} {} 4 0

/-- A client after some steps. -/
def after (acts : List (Act Bool)) : Machine Bool := (acts.foldlM Machine.act start).getD start

theorem run_after {acts : List (Act Bool)} (hsome : (acts.foldlM Machine.act start).isSome = true) :
    Run Steps start acts (after acts) :=
  Run.of_isSome_foldlM hsome

theorem steps_after {acts : List (Act Bool)} {a : Act Bool}
    (hsome : ((acts ++ [a]).foldlM Machine.act start).isSome = true) :
    Steps (after acts) a (after (acts ++ [a])) := by
  obtain ⟨m, hm⟩ := Option.isSome_iff_exists.mp hsome
  have hlast := hm
  rw [List.foldlM_append, Option.bind_eq_bind, Option.bind_eq_some_iff] at hlast
  obtain ⟨u, hu, hlast⟩ := hlast
  rw [after, after, hm, hu]
  simpa [Steps] using hlast

/-- A request begins. -/
def begins (t : Bool) : List (Act Bool) :=
  [.enter t { host := ByteString.ascii "example.test" } .auto 0, .readQuality t, .readEpoch t]

/-- An attempt, on an empty pool. -/
def attempts (t : Bool) : List (Act Bool) :=
  [.use t (.resolve 1000), .use t (.acquire []),
    .use t (.engineRequest .http1 (ByteString.ascii "192.0.2.1") 0 1000), .use t (.release true),
    .use t (.reportConnectionResult 0 (ByteString.ascii "192.0.2.1") true 20), .use t (.observe true 20)]

/-- The locked section of a network change. -/
def changes (t : Bool) (net : Network) : List (Act Bool) :=
  [.change t net, .bump t, .resetProber t, .resetPool t, .resetResolver t, .tellResolver t, .unlock t]

/-- The outcome of the first request is published after the change. -/
def crossing : List (Act Bool) :=
  begins false ++ attempts false ++ [.tick 5, .measure false, .leave false] ++ changes true .wifi ++
    [.publish false] ++ begins false ++ attempts false

theorem agree_of_run_crossing : ∃ out, (after crossing).phase false = .requesting out ∧
    ReadAtStart start crossing false out.context.networkEpoch ∧
    (after crossing).epochs.Agree out.context.networkEpoch ∧ Unmixed (after crossing) ∧
    (after crossing).networkEpoch = 1 ∧ (after crossing).prober.snapshot.samples = 1 := by
  have hall : (crossing.foldlM Machine.act start).isSome = true := by decide +kernel
  obtain ⟨huses, hmix, -⟩ := agree_of_run (run_after hall)
  obtain ⟨m', hm'⟩ := Option.isSome_iff_exists.mp
    (show ((after crossing).act (.use false (.observe true 20))).isSome = true by decide +kernel)
  obtain ⟨out, hphase, hread, -, hagree⟩ := huses false (.observe true 20) m' hm'
  exact ⟨out, hphase, hread, hagree, hmix, by decide +kernel, by decide +kernel⟩

end Threads

end Client

end AsterNet
