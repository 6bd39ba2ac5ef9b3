import AsterNet.Client.Threads
import AsterNet.Connection.Equiv.Accounting
import AsterNet.Dns.Equiv.Resolve
import AsterNet.Sdt.Equiv.Prober

/-!
# What the steps of the threads of a client do

`Stepped` lists what one step can come to.  `Inv` ties `lifecycle_mutex_` to the threads, and the epochs
of the client, its prober, its pool and its resolver to how far a network change is; `inv_of_run` proves
it of every machine that is reached.
-/

namespace AsterNet

namespace Client

namespace Threads

variable {ι : Type} [DecidableEq ι] {m m' : Machine ι} {t u : ι}

/-- What one step can come to. -/
inductive Stepped (m : Machine ι) : Act ι → Machine ι → Prop
  | ticked (ms : ℕ) : Stepped m (.tick ms) { m with clockMs := m.clockMs + ms }
  | looked (cache : AList fun _ : Bytes => Dns.CacheEntry) (activeLookups : ℕ) :
      Stepped m (.lookup cache activeLookups)
        { m with resolver := { m.resolver with cache, activeLookups } }
  | entered (t : ι) (req : Request) (policy : ProtocolPolicy) (startedMs : ℕ) (mutex : SharedMutex ι)
      (hphase : m.phase t = .idle) (hlock : m.mutex.lockShared t = some mutex) :
      Stepped m (.enter t req policy startedMs)
        ({ m with mutex }.goto t (.entered req policy startedMs))
  | qualityRead (t : ι) (req : Request) (policy : ProtocolPolicy) (startedMs : ℕ)
      (hphase : m.phase t = .entered req policy startedMs) :
      Stepped m (.readQuality t) (m.goto t (.ready req policy startedMs m.prober.snapshot))
  | epochRead (t : ι) (req : Request) (policy : ProtocolPolicy) (startedMs : ℕ) (before : QualitySnapshot)
      (hphase : m.phase t = .ready req policy startedMs before) :
      Stepped m (.readEpoch t)
        ({ m with nextRequestId := m.nextRequestId + 1 }.goto t (.requesting
          { before
            context := initialContext m.config req policy startedMs m.nextRequestId m.networkEpoch }))
  | asked (t : ι) (out : Outgoing) (op : Op) (hphase : m.phase t = .requesting out) :
      Stepped m (.use t op) m
  | acquired (t : ι) (out : Outgoing) (order : List (Σ _ : Bytes, ConnectionPool.Entry)) (origin : Origin)
      (hphase : m.phase t = .requesting out) (huse : out.use (.acquire order) = .acquire order origin) :
      Stepped m (.use t (.acquire order))
        ({ m with pool := (ConnectionPool.acquire order m.clockMs origin m.pool).2 }.goto t (.requesting
          { out with lease := (ConnectionPool.acquire order m.clockMs origin m.pool).1 }))
  | released (t : ι) (out : Outgoing) (success : Bool) (hphase : m.phase t = .requesting out) :
      Stepped m (.use t (.release success))
        { m with pool := ConnectionPool.release m.clockMs out.lease success m.pool }
  | reported (t : ι) (out : Outgoing) (order : ℕ) (ip : Bytes) (success : Bool) (rttMs : ℤ)
      (hphase : m.phase t = .requesting out) :
      Stepped m (.use t (.reportConnectionResult order ip success rttMs))
        { m with
          resolver := Dns.reportConnectionResult m.clockMs order out.context.request.host ip
            out.context.networkEpoch success rttMs m.resolver }
  | observed (t : ι) (out : Outgoing) (success : Bool) (rttMs : ℤ)
      (hphase : m.phase t = .requesting out) :
      Stepped m (.use t (.observe success rttMs))
        { m with
          prober := (Prober.observe {} m.clockMs success rttMs m.prober).1
          observedUnder := m.observedUnder ++ [out.context.networkEpoch] }
  | measured (t : ι) (out : Outgoing) (hphase : m.phase t = .requesting out) :
      Stepped m (.measure t) (m.goto t (.measured out.before m.prober.snapshot))
  | left (t : ι) (before after : QualitySnapshot) (hphase : m.phase t = .measured before after) :
      Stepped m (.leave t) ({ m with mutex := m.mutex.unlockShared t }.goto t
        (if qualityChanged before after then .publishing after else .idle))
  | changed (t : ι) (net : Network) (mutex : SharedMutex ι) (hphase : m.phase t = .idle)
      (hlock : m.mutex.lock t = some mutex) :
      Stepped m (.change t net) ({ m with mutex }.goto t (.changing net m.prober.snapshot .begun))
  | bumped (t : ι) (net : Network) (before : QualitySnapshot)
      (hphase : m.phase t = .changing net before .begun) :
      Stepped m (.bump t) ({ m with networkEpoch := m.networkEpoch + 1 }.goto t
        (.changing net before (.bumped (m.networkEpoch + 1))))
  | proberReset (t : ι) (net : Network) (before : QualitySnapshot) (epoch : ℕ)
      (hphase : m.phase t = .changing net before (.bumped epoch)) :
      Stepped m (.resetProber t) (m.resetProber t net before epoch)
  | poolReset (t : ι) (net : Network) (before : QualitySnapshot) (epoch : ℕ) (after : QualitySnapshot)
      (hphase : m.phase t = .changing net before (.probed epoch after)) :
      Stepped m (.resetPool t) ({ m with pool := ConnectionPool.onNetworkChange epoch m.pool }.goto t
        (.changing net before (.pooled epoch after)))
  | resolverReset (t : ι) (net : Network) (before : QualitySnapshot) (epoch : ℕ) (after : QualitySnapshot)
      (hphase : m.phase t = .changing net before (.pooled epoch after)) :
      Stepped m (.resetResolver t) ({ m with resolver := Dns.onNetworkChange epoch m.resolver }.goto t
        (.changing net before (.resolved after)))
  | resolverTold (t : ι) (net : Network) (before after : QualitySnapshot)
      (hphase : m.phase t = .changing net before (.resolved after)) :
      Stepped m (.tellResolver t) ({ m with resolver := Dns.onQualityChange after m.resolver }.goto t
        (.changing net before (.told after)))
  | unlocked (t : ι) (net : Network) (before after : QualitySnapshot)
      (hphase : m.phase t = .changing net before (.told after)) :
      Stepped m (.unlock t) ({ m with mutex := m.mutex.unlock }.goto t (.migrating before after))
  | migrateBegun (t : ι) (before after : QualitySnapshot) (hphase : m.phase t = .migrating before after) :
      Stepped m (.beginMigrate t)
        ({ m with pool := ConnectionPool.beginMigrate m.pool }.goto t (.migrated before after))
  | migrateEnded (t : ι) (result : Result) (before after : QualitySnapshot)
      (hphase : m.phase t = .migrated before after) :
      Stepped m (.endMigrate t result)
        ({ m with pool := ConnectionPool.endMigrate result m.pool }.goto t
          (if networkQualityChanged before after then .publishing after else .idle))
  | subscribed (t : ι) (mutex : SharedMutex ι) (hphase : m.phase t = .idle)
      (hlock : m.mutex.lock t = some mutex) :
      Stepped m (.subscribe t) ({ m with mutex := mutex.unlock }.goto t (.publishing m.lastQuality))
  | refused (t : ι) (snapshot : QualitySnapshot) (mutex : SharedMutex ι)
      (hphase : m.phase t = .publishing snapshot) (hlock : m.mutex.lock t = some mutex)
      (hrefuses : m.Refuses snapshot) :
      Stepped m (.publish t) ({ m with mutex := mutex.unlock }.goto t .idle)
  | published (t : ι) (snapshot : QualitySnapshot) (mutex : SharedMutex ι)
      (hphase : m.phase t = .publishing snapshot) (hlock : m.mutex.lock t = some mutex)
      (haccepts : ¬ m.Refuses snapshot) :
      Stepped m (.publish t)
        ({ m with mutex := mutex.unlock, lastQuality := snapshot }.goto t (.delivering snapshot))
  | delivered (t : ι) (snapshot : QualitySnapshot) (hphase : m.phase t = .delivering snapshot) :
      Stepped m (.deliver t) ({ m with resolver := Dns.onQualityChange snapshot m.resolver }.goto t .idle)

theorem stepped_of_use {out : Outgoing} {op : Op} (hphase : m.phase t = .requesting out) :
    Stepped m (.use t op) (m.perform t out (out.use op)) := by
  cases op with
  | resolve timeoutMs => exact .asked t out _ hphase
  | acquire order => exact .acquired t out order _ hphase rfl
  | engineRequest type connectHost dnsMs timeoutMs => exact .asked t out _ hphase
  | release success => exact .released t out success hphase
  | reportConnectionResult order ip success rttMs =>
    exact .reported t out order ip success rttMs hphase
  | observe success rttMs => exact .observed t out success rttMs hphase

/-- What the threads do. -/
theorem Steps.stepped {a : Act ι} (hs : Steps m a m') : Stepped m a m' := by
  unfold Steps at hs
  cases a with
  | tick ms =>
    cases hs
    exact .ticked ms
  | lookup cache activeLookups =>
    cases hs
    exact .looked cache activeLookups
  -- each of the others is possible in one phase only, and what it makes is read off the definition
  | enter t req policy startedMs =>
    rw [Machine.act] at hs
    split at hs
    · case h_1 hphase =>
      split_ifs at hs
      obtain ⟨mutex, hlock, rfl⟩ := Option.map_eq_some_iff.mp hs
      exact .entered t req policy startedMs mutex hphase hlock
    · cases hs
  | readQuality t =>
    rw [Machine.act] at hs
    split at hs
    · case h_1 req policy startedMs hphase =>
      cases hs
      exact .qualityRead t req policy startedMs hphase
    · cases hs
  | readEpoch t =>
    rw [Machine.act] at hs
    split at hs
    · case h_1 req policy startedMs before hphase =>
      cases hs
      exact .epochRead t req policy startedMs before hphase
    · cases hs
  | use t op =>
    rw [Machine.act] at hs
    split at hs
    · case h_1 out hphase =>
      split_ifs at hs
      cases hs
      exact stepped_of_use hphase
    · cases hs
  | measure t =>
    rw [Machine.act] at hs
    split at hs
    · case h_1 out hphase =>
      cases hs
      exact .measured t out hphase
    · cases hs
  | leave t =>
    rw [Machine.act] at hs
    split at hs
    · case h_1 before after hphase =>
      cases hs
      exact .left t before after hphase
    · cases hs
  | change t net =>
    rw [Machine.act] at hs
    split at hs
    · case h_1 hphase =>
      obtain ⟨mutex, hlock, rfl⟩ := Option.map_eq_some_iff.mp hs
      exact .changed t net mutex hphase hlock
    · cases hs
  | bump t =>
    rw [Machine.act] at hs
    split at hs
    · case h_1 net before hphase =>
      cases hs
      exact .bumped t net before hphase
    · cases hs
  | resetProber t =>
    rw [Machine.act] at hs
    split at hs
    · case h_1 net before epoch hphase =>
      cases hs
      exact .proberReset t net before epoch hphase
    · cases hs
  | resetPool t =>
    rw [Machine.act] at hs
    split at hs
    · case h_1 net before epoch after hphase =>
      cases hs
      exact .poolReset t net before epoch after hphase
    · cases hs
  | resetResolver t =>
    rw [Machine.act] at hs
    split at hs
    · case h_1 net before epoch after hphase =>
      cases hs
      exact .resolverReset t net before epoch after hphase
    · cases hs
  | tellResolver t =>
    rw [Machine.act] at hs
    split at hs
    · case h_1 net before after hphase =>
      cases hs
      exact .resolverTold t net before after hphase
    · cases hs
  | unlock t =>
    rw [Machine.act] at hs
    split at hs
    · case h_1 net before after hphase =>
      cases hs
      exact .unlocked t net before after hphase
    · cases hs
  | beginMigrate t =>
    rw [Machine.act] at hs
    split at hs
    · case h_1 before after hphase =>
      cases hs
      exact .migrateBegun t before after hphase
    · cases hs
  | endMigrate t result =>
    rw [Machine.act] at hs
    split at hs
    · case h_1 before after hphase =>
      cases hs
      exact .migrateEnded t result before after hphase
    · cases hs
  | subscribe t =>
    rw [Machine.act] at hs
    split at hs
    · case h_1 hphase =>
      obtain ⟨mutex, hlock, rfl⟩ := Option.map_eq_some_iff.mp hs
      exact .subscribed t mutex hphase hlock
    · cases hs
  | publish t =>
    rw [Machine.act] at hs
    split at hs
    · case h_1 snapshot hphase =>
      obtain ⟨mutex, hlock, rfl⟩ := Option.map_eq_some_iff.mp hs
      dsimp only
      unfold Machine.publish
      split_ifs with hrefuses
      · exact .refused t snapshot mutex hphase hlock hrefuses
      · exact .published t snapshot mutex hphase hlock hrefuses
    · cases hs
  | deliver t =>
    rw [Machine.act] at hs
    split at hs
    · case h_1 snapshot hphase =>
      cases hs
      exact .delivered t snapshot hphase
    · cases hs

/-! ### The epochs -/

/-- The network epochs of a client and of its components. -/
structure Epochs where
  client : ℕ
  prober : ℕ
  pool : ℕ
  resolver : ℕ

/-- All of them are this one. -/
structure Epochs.Agree (e : Epochs) (epoch : ℕ) : Prop where
  client : e.client = epoch
  prober : e.prober = epoch
  pool : e.pool = epoch
  resolver : e.resolver = epoch

def Machine.epochs (m : Machine ι) : Epochs where
  client := m.networkEpoch
  prober := m.prober.snapshot.networkEpoch
  pool := m.pool.networkEpoch
  resolver := m.resolver.lastNetworkEpoch

/-- Which of the components a network change has brought to the new epoch. -/
def ChangeStage.Agrees : ChangeStage → Epochs → Prop
  | .begun, e => e.Agree e.client
  | .bumped epoch, e => e.client = epoch ∧ e.prober < epoch
  | .probed epoch _, e => e.client = epoch ∧ e.prober = epoch
  | .pooled epoch _, e => e.client = epoch ∧ e.prober = epoch ∧ e.pool = epoch
  | .resolved _, e => e.Agree e.client
  | .told _, e => e.Agree e.client

/-- The locals of a request carry this epoch. -/
structure Outgoing.Carries (out : Outgoing) (epoch : ℕ) : Prop where
  context : out.context.networkEpoch = epoch
  request : out.context.request.networkEpoch = epoch
  lease : out.lease.valid = true → out.lease.origin.networkEpoch = epoch

/-- What a thread relies on. -/
def Phase.Agrees : Phase → Epochs → Prop
  | .requesting out, e => out.Carries e.client
  | .changing _ _ stage, e => stage.Agrees e
  | _, _ => True

/-- How the threads hold `lifecycle_mutex_`. -/
def Machine.modes (m : Machine ι) (t : ι) : LockMode := (m.phase t).mode

/-- What every step preserves. -/
structure Inv (m : Machine ι) : Prop where
  tied : m.mutex.Tied m.modes
  agree : (∀ t, m.modes t ≠ .exclusive) → m.epochs.Agree m.epochs.client
  phases : ∀ t, (m.phase t).Agrees m.epochs

theorem Phase.agrees_of_free {p : Phase} (hfree : p.mode = .free) (e : Epochs) : p.Agrees e := by
  cases p with
  | requesting out => cases hfree
  | changing net before stage => cases hfree
  | _ => exact trivial

namespace Machine

/-- What holds of every phase holds after a thread has moved on. -/
theorem forall_phase_goto {P : Phase → Prop} {p : Phase} (hold : ∀ u, u ≠ t → P (m.phase u)) (hnew : P p) :
    ∀ u, P ((m.goto t p).phase u) := by
  intro u
  rcases eq_or_ne u t with rfl | hne
  · rwa [goto_phase_self]
  · rw [goto_phase_of_ne m hne]
    exact hold u hne

theorem modes_goto (t : ι) (p : Phase) : (m.goto t p).modes = Function.update m.modes t p.mode := by
  funext u
  rcases eq_or_ne u t with rfl | hne
  · rw [Function.update_self, modes, goto_phase_self]
  · rw [Function.update_of_ne hne, modes, goto_phase_of_ne m hne]
    rfl

/-- A thread that holds the lock as before. -/
theorem modes_goto_of_eq {p : Phase} (hmode : p.mode = m.modes t) : (m.goto t p).modes = m.modes := by
  rw [modes_goto, hmode, Function.update_eq_self]

end Machine

/-- After a short section the lock is held as before. -/
theorem Inv.tied_unlock (h : Inv m) {mutex : SharedMutex ι} (hlock : m.mutex.lock t = some mutex) :
    mutex.unlock.Tied m.modes := by
  obtain ⟨htied, hfree⟩ := h.tied.lock hlock
  have hunlocked := htied.unlock (Function.update_self t LockMode.exclusive m.modes)
  rwa [Function.update_idem, ← hfree t, Function.update_eq_self] at hunlocked

omit [DecidableEq ι] in
/-- What a request relies on. -/
theorem Inv.requesting (h : Inv m) {out : Outgoing} (hphase : m.phase t = .requesting out) :
    out.Carries m.epochs.client := by
  have hagrees := h.phases t
  rw [hphase] at hagrees
  exact hagrees

omit [DecidableEq ι] in
/-- What a network change relies on. -/
theorem Inv.changing (h : Inv m) {net : Network} {before : QualitySnapshot} {stage : ChangeStage}
    (hphase : m.phase t = .changing net before stage) : stage.Agrees m.epochs := by
  have hagrees := h.phases t
  rw [hphase] at hagrees
  exact hagrees

omit [DecidableEq ι] in
/-- The threads are where they were, and so are the lock and the epochs. -/
theorem Inv.of_eq (h : Inv m) (hphase : m'.phase = m.phase) (htied : m'.mutex.Tied m.modes)
    (hepochs : m'.epochs = m.epochs) : Inv m' := by
  have hmodes : m'.modes = m.modes := by
    funext u
    rw [Machine.modes, hphase]
    rfl
  refine ⟨?_, ?_, ?_⟩
  · rwa [hmodes]
  · rw [hmodes, hepochs]
    exact h.agree
  · rw [hphase, hepochs]
    exact h.phases

/-- A thread moves on and holds the lock as before. -/
theorem Inv.goto (h : Inv m) {p q : Phase} (hphase : m.phase t = q) (hmode : p.mode = q.mode)
    (hp : p.Agrees m.epochs) : Inv (m.goto t p) := by
  have hmodes : (m.goto t p).modes = m.modes := by
    refine Machine.modes_goto_of_eq ?_
    rw [hmode, ← hphase]
    rfl
  refine ⟨?_, ?_, ?_⟩
  · rw [hmodes]
    exact h.tied
  · rw [hmodes]
    exact h.agree
  · exact Machine.forall_phase_goto (P := fun p => p.Agrees m.epochs) (fun u _ => h.phases u) hp

/-- The thread that holds the lock alone moves on, whatever it does to the epochs. -/
theorem Inv.goto_of_exclusive (h : Inv m) {m₁ : Machine ι} {p q : Phase} (hphase : m.phase t = q)
    (hphases : m₁.phase = m.phase) (hmutex : m₁.mutex = m.mutex) (hold : q.mode = .exclusive)
    (hmode : p.mode = .exclusive) (hp : p.Agrees m₁.epochs) : Inv (m₁.goto t p) := by
  have hexclusive : m.modes t = .exclusive := by rw [Machine.modes, hphase, hold]
  have hmodes₁ : m₁.modes = m.modes := by
    funext u
    rw [Machine.modes, hphases]
    rfl
  have hmodes : (m₁.goto t p).modes = m.modes := by
    rw [Machine.modes_goto_of_eq, hmodes₁]
    rw [hmodes₁, hmode, hexclusive]
  refine ⟨?_, ?_, ?_⟩
  · rw [hmodes, Machine.goto_mutex, hmutex]
    exact h.tied
  · rw [hmodes]
    exact fun hnone => absurd hexclusive (hnone t)
  · refine Machine.forall_phase_goto (P := fun p => p.Agrees m₁.epochs) (fun u hne => ?_) hp
    rw [hphases]
    exact Phase.agrees_of_free (h.tied.free_of_exclusive hexclusive hne) _

/-- The thread gives the lock back, or takes it. -/
theorem Inv.goto_of_tied (h : Inv m) {mutex : SharedMutex ι} {p : Phase}
    (htied : mutex.Tied (Function.update m.modes t p.mode))
    (hagree : p.mode ≠ .exclusive → (∀ u, u ≠ t → m.modes u ≠ .exclusive) → m.epochs.Agree m.epochs.client)
    (hp : p.Agrees m.epochs) : Inv ({ m with mutex }.goto t p) := by
  have hmodes : ({ m with mutex }.goto t p : Machine ι).modes = Function.update m.modes t p.mode :=
    Machine.modes_goto t p
  refine ⟨?_, ?_, ?_⟩
  · rw [hmodes]
    exact htied
  · rw [hmodes]
    intro hnone
    have hself := hnone t
    rw [Function.update_self] at hself
    refine hagree hself fun u hne => ?_
    have hother := hnone u
    rwa [Function.update_of_ne hne] at hother
  · exact Machine.forall_phase_goto (P := fun p => p.Agrees m.epochs) (fun u _ => h.phases u) hp

/-- The locals of a request whose epoch was just read. -/
theorem carries_initialContext (config : ClientConfig) (req : Request) (policy : ProtocolPolicy)
    (startedMs requestId networkEpoch : ℕ) (before : QualitySnapshot) :
    Outgoing.Carries
      { before, context := initialContext config req policy startedMs requestId networkEpoch }
      networkEpoch :=
  ⟨rfl, rfl, by simp [ConnectionPool.noLease]⟩

/-- **One step keeps the epochs together.** -/
theorem inv_of_stepped {a : Act ι} (h : Inv m) (hs : Stepped m a m') : Inv m' := by
  cases hs with
  | ticked ms => exact h.of_eq rfl h.tied rfl
  | looked cache activeLookups => exact h.of_eq rfl h.tied rfl
  -- nobody has the lock alone, so the epochs agree
  | entered t req policy startedMs mutex hphase hlock =>
    obtain ⟨htied, hnone⟩ := h.tied.lockShared hlock
    exact h.goto_of_tied htied (fun _ _ => h.agree hnone) trivial
  | qualityRead t req policy startedMs hphase => exact h.goto hphase rfl trivial
  | epochRead t req policy startedMs before hphase =>
    have hsame : Inv { m with nextRequestId := m.nextRequestId + 1 } := h.of_eq rfl h.tied rfl
    exact hsame.goto hphase rfl
      (carries_initialContext _ _ _ _ _ _ _)
  | asked t out op hphase => exact h
  -- the pool keeps its epoch, and gives a lease with the origin that was asked for
  | acquired t out order origin hphase huse =>
    obtain ⟨hepoch, -, horigin⟩ := ConnectionPool.acquire_frame order m.clockMs origin m.pool
    have hsame : Inv { m with pool := (ConnectionPool.acquire order m.clockMs origin m.pool).2 } := by
      refine h.of_eq rfl h.tied ?_
      unfold Machine.epochs
      rw [hepoch]
    have hout := h.requesting hphase
    refine hsame.goto hphase rfl ?_
    refine ⟨hout.context, hout.request, fun hvalid => ?_⟩
    obtain ⟨-, rfl⟩ := Use.acquire.inj huse
    rw [horigin hvalid]
    exact hout.context
  | released t out success hphase =>
    refine h.of_eq rfl h.tied ?_
    unfold Machine.epochs
    rw [(ConnectionPool.release_frame m.clockMs out.lease success m.pool).1]
  | reported t out order ip success rttMs hphase =>
    refine h.of_eq rfl h.tied ?_
    obtain ⟨health, -, heq⟩ := Dns.reportConnectionResult_frame m.clockMs order out.context.request.host
      ip out.context.networkEpoch success rttMs m.resolver
    unfold Machine.epochs
    rw [heq]
  | observed t out success rttMs hphase =>
    refine h.of_eq rfl h.tied ?_
    have hcounted := Prober.counted_observeSample {} m.clockMs success { rttMs } m.prober
    unfold Machine.epochs
    exact congrArg (Epochs.mk _ · _ _) hcounted.networkEpoch_eq
  | measured t out hphase => exact h.goto hphase rfl trivial
  -- the others may still share the lock
  | left t before after hphase =>
    have hshared : m.modes t = .shared := by rw [Machine.modes, hphase]; rfl
    have hnone : ∀ u, m.modes u ≠ .exclusive := fun u hu =>
      h.tied.not_shared_of_exclusive hu hshared
    have htied := h.tied.unlockShared hshared
    split_ifs
    · exact h.goto_of_tied htied (fun _ _ => h.agree hnone) trivial
    · exact h.goto_of_tied htied (fun _ _ => h.agree hnone) trivial
  -- from here to the unlock the epochs are told apart by the stage
  | changed t net mutex hphase hlock =>
    obtain ⟨htied, hfree⟩ := h.tied.lock hlock
    have hagree := h.agree fun u hu => by rw [hfree u] at hu; cases hu
    exact h.goto_of_tied htied (fun _ _ => hagree) hagree
  -- the client is ahead of the prober, the pool and the resolver
  | bumped t net before hphase =>
    have hstage := h.changing hphase
    refine h.goto_of_exclusive hphase rfl rfl rfl rfl ⟨rfl, ?_⟩
    show m.prober.snapshot.networkEpoch < m.networkEpoch + 1
    have hprober : m.prober.snapshot.networkEpoch = m.networkEpoch := hstage.prober
    omega
  | proberReset t net before epoch hphase =>
    have hstage := h.changing hphase
    exact h.goto_of_exclusive hphase rfl rfl rfl rfl ⟨hstage.1, rfl⟩
  | poolReset t net before epoch after hphase =>
    have hstage := h.changing hphase
    exact h.goto_of_exclusive hphase rfl rfl rfl rfl ⟨hstage.1, hstage.2, rfl⟩
  -- the last of the four parts is told, so they agree again
  | resolverReset t net before epoch after hphase =>
    have hstage := h.changing hphase
    obtain ⟨hclient, hprober, hpool⟩ := hstage
    exact h.goto_of_exclusive hphase rfl rfl rfl rfl
      ⟨rfl, hprober.trans hclient.symm, hpool.trans hclient.symm, hclient.symm⟩
  | resolverTold t net before after hphase =>
    have hstage := h.changing hphase
    exact h.goto_of_exclusive hphase rfl rfl rfl rfl hstage
  | unlocked t net before after hphase =>
    have hstage := h.changing hphase
    have hexclusive : m.modes t = .exclusive := by rw [Machine.modes, hphase]; rfl
    exact h.goto_of_tied (h.tied.unlock hexclusive) (fun _ _ => hstage) trivial
  | migrateBegun t before after hphase =>
    have hsame : Inv { m with pool := ConnectionPool.beginMigrate m.pool } := h.of_eq rfl h.tied rfl
    exact hsame.goto hphase rfl trivial
  | migrateEnded t result before after hphase =>
    have hsame : Inv { m with pool := ConnectionPool.endMigrate result m.pool } := h.of_eq rfl h.tied rfl
    split_ifs
    · exact hsame.goto hphase rfl trivial
    · exact hsame.goto hphase rfl trivial
  | subscribed t mutex hphase hlock =>
    have hsame : Inv { m with mutex := mutex.unlock } := h.of_eq rfl (h.tied_unlock hlock) rfl
    exact hsame.goto hphase rfl trivial
  | refused t snapshot mutex hphase hlock hrefuses =>
    have hsame : Inv { m with mutex := mutex.unlock } := h.of_eq rfl (h.tied_unlock hlock) rfl
    exact hsame.goto hphase rfl trivial
  | published t snapshot mutex hphase hlock haccepts =>
    have hsame : Inv { m with mutex := mutex.unlock, lastQuality := snapshot } :=
      h.of_eq rfl (h.tied_unlock hlock) rfl
    exact hsame.goto hphase rfl trivial
  | delivered t snapshot hphase =>
    have hsame : Inv { m with resolver := Dns.onQualityChange snapshot m.resolver } :=
      h.of_eq rfl h.tied rfl
    exact hsame.goto hphase rfl trivial

section

variable {config : ClientConfig} {dnsConfig : Dns.Config} {maxOrigins startMs : ℕ}

omit [DecidableEq ι] in
theorem inv_init : Inv (init ι config dnsConfig maxOrigins startMs) where
  tied :=
    ⟨fun t => by simp [init, Machine.modes, Phase.mode],
      fun t => by simp [init, Machine.modes, Phase.mode]⟩
  agree _ := ⟨rfl, rfl, rfl, rfl⟩
  phases _ := trivial

theorem inv_of_run {acts : List (Act ι)}
    (hrun : Transition.Run Steps (init ι config dnsConfig maxOrigins startMs) acts m) : Inv m :=
  hrun.invariant (fun _ _ _ h hs => inv_of_stepped h hs.stepped) inv_init

end

end Threads

end Client

end AsterNet
