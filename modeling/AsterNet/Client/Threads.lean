import AsterNet.Client.Client
import AsterNet.Connection.ConnectionPool
import AsterNet.Lib.SharedMutex
import AsterNet.Lib.Transition
import AsterNet.Sdt.Prober

/-!
# Concurrent calls on a client (`client.cpp`)

`request_with_policy` holds `lifecycle_mutex_` shared while it uses the resolver, the pool and the prober;
`on_network_change` holds it exclusively while it resets them one after the other.  `migrate` and
`publish_quality_change` come after the lock was given back, and the latter takes it again for a moment.
The machine takes one access to one of the components at a time, so that any number of calls interleave.

What the pipeline does between reading the epoch and reading the quality a second time is any number of
`Op`s: the uses `execute_transport` makes of the components, with the arguments it makes of the locals.
A clock reading is the time of the machine.  Calls that return early take no step, and the client is not
destroyed.
-/

namespace AsterNet

namespace Client

/-- The quality after a network change differs enough to be published. -/
def networkQualityChanged (before after : QualitySnapshot) : Bool :=
  after.networkEpoch != before.networkEpoch || after.network != before.network
    || after.quality != before.quality

namespace Threads

/-- The locals of a request that is under way. -/
structure Outgoing where
  before : QualitySnapshot
  context : RequestContext
  lease : ConnectionLease := ConnectionPool.noLease
  deriving DecidableEq, Repr

/-- How far a network change is in its locked section. -/
inductive ChangeStage
  | begun
  | bumped (epoch : ℕ)
  | probed (epoch : ℕ) (after : QualitySnapshot)
  | pooled (epoch : ℕ) (after : QualitySnapshot)
  | resolved (after : QualitySnapshot)
  | told (after : QualitySnapshot)
  deriving DecidableEq, Repr

/-- Where a thread is. -/
inductive Phase
  | idle
  | entered (req : Request) (policy : ProtocolPolicy) (startedMs : ℕ)
  | ready (req : Request) (policy : ProtocolPolicy) (startedMs : ℕ) (before : QualitySnapshot)
  | requesting (out : Outgoing)
  | measured (before after : QualitySnapshot)
  | changing (net : Network) (before : QualitySnapshot) (stage : ChangeStage)
  | migrating (before after : QualitySnapshot)
  | migrated (before after : QualitySnapshot)
  | publishing (snapshot : QualitySnapshot)
  /-- Between the locked section of `publish_quality_change` and its call of the resolver. -/
  | delivering (snapshot : QualitySnapshot)
  deriving DecidableEq, Repr

/-- How a thread there holds `lifecycle_mutex_`. -/
def Phase.mode : Phase → LockMode
  | .entered _ _ _ => .shared
  | .ready _ _ _ _ => .shared
  | .requesting _ => .shared
  | .measured _ _ => .shared
  | .changing _ _ _ => .exclusive
  | _ => .free

/-- A client with the threads that use it. -/
structure Machine (ι : Type) where
  config : ClientConfig
  clockMs : ℕ
  mutex : SharedMutex ι := {}
  nextRequestId : ℕ := 1
  networkEpoch : ℕ := 0
  prober : Prober.State := {}
  pool : ConnectionPool.State
  resolver : Dns.State
  lastQuality : QualitySnapshot := {}
  phase : ι → Phase := fun _ => .idle
  /-- The epochs of the requests whose outcomes the prober counts. -/
  observedUnder : List ℕ := []

/-- What the pipeline does next. -/
inductive Op
  | resolve (timeoutMs : ℤ)
  | acquire (order : List (Σ _ : Bytes, ConnectionPool.Entry))
  | engineRequest (type : EngineType) (connectHost : Bytes) (dnsMs timeoutMs : ℤ)
  | release (success : Bool)
  | reportConnectionResult (order : ℕ) (ip : Bytes) (success : Bool) (rttMs : ℤ)
  | observe (success : Bool) (rttMs : ℤ)

/-- A use of a component, with the arguments it is called with. -/
inductive Use
  | resolve (host : Bytes) (networkEpoch : ℕ) (timeoutMs : ℤ)
  | acquire (order : List (Σ _ : Bytes, ConnectionPool.Entry)) (origin : Origin)
  | engineRequest (type : EngineType) (attempt : Request)
  | release (lease : ConnectionLease) (success : Bool)
  | reportConnectionResult (order : ℕ) (host ip : Bytes) (networkEpoch : ℕ) (success : Bool) (rttMs : ℤ)
  | observe (success : Bool) (rttMs : ℤ)

/-- The calls of `execute_transport` and of the selector. -/
def Outgoing.use (out : Outgoing) : Op → Use
  | .resolve timeoutMs => .resolve out.context.request.host out.context.networkEpoch timeoutMs
  | .acquire order =>
    .acquire order
      { host := out.context.request.host
        port := out.context.request.port
        networkEpoch := out.context.networkEpoch }
  | .engineRequest type connectHost dnsMs timeoutMs =>
    .engineRequest type { out.context.request with connectHost, dnsMs, timeoutMs }
  | .release success => .release out.lease success
  | .reportConnectionResult order ip success rttMs =>
    .reportConnectionResult order out.context.request.host ip out.context.networkEpoch success rttMs
  | .observe success rttMs => .observe success rttMs

/-- A step of a thread. -/
inductive Act (ι : Type)
  | tick (ms : ℕ)
  /-- A lookup of a request goes on in the resolver. -/
  | lookup (cache : AList fun _ : Bytes => Dns.CacheEntry) (activeLookups : ℕ)
  -- `request_with_policy`
  | enter (t : ι) (req : Request) (policy : ProtocolPolicy) (startedMs : ℕ)
  | readQuality (t : ι)
  | readEpoch (t : ι)
  | use (t : ι) (op : Op)
  | measure (t : ι)
  | leave (t : ι)
  -- `on_network_change`
  | change (t : ι) (net : Network)
  | bump (t : ι)
  | resetProber (t : ι)
  | resetPool (t : ι)
  | resetResolver (t : ι)
  | tellResolver (t : ι)
  | unlock (t : ι)
  | beginMigrate (t : ι)
  | endMigrate (t : ι) (result : Result)
  -- `set_quality_change_callback`
  | subscribe (t : ι)
  -- `publish_quality_change`
  | publish (t : ι)
  | deliver (t : ι)

namespace Machine

variable {ι : Type} [DecidableEq ι] (m : Machine ι)

/-- A thread moves on. -/
def goto (t : ι) (phase : Phase) : Machine ι := { m with phase := Function.update m.phase t phase }

@[simp] theorem goto_clockMs (t : ι) (p : Phase) : (m.goto t p).clockMs = m.clockMs := rfl
@[simp] theorem goto_mutex (t : ι) (p : Phase) : (m.goto t p).mutex = m.mutex := rfl
@[simp] theorem goto_networkEpoch (t : ι) (p : Phase) : (m.goto t p).networkEpoch = m.networkEpoch := rfl
@[simp] theorem goto_prober (t : ι) (p : Phase) : (m.goto t p).prober = m.prober := rfl
@[simp] theorem goto_pool (t : ι) (p : Phase) : (m.goto t p).pool = m.pool := rfl
@[simp] theorem goto_resolver (t : ι) (p : Phase) : (m.goto t p).resolver = m.resolver := rfl
@[simp] theorem goto_lastQuality (t : ι) (p : Phase) : (m.goto t p).lastQuality = m.lastQuality := rfl
@[simp] theorem goto_observedUnder (t : ι) (p : Phase) :
    (m.goto t p).observedUnder = m.observedUnder := rfl

@[simp] theorem goto_phase_self (t : ι) (p : Phase) : (m.goto t p).phase t = p := by
  simp [goto]

theorem goto_phase_of_ne {t u : ι} (h : u ≠ t) (p : Phase) : (m.goto t p).phase u = m.phase u := by
  simp [goto, h]

/-- A short section under `lifecycle_mutex_`. -/
def locked (t : ι) (act : Machine ι → Machine ι) : Option (Machine ι) :=
  (m.mutex.lock t).map fun mutex => act { m with mutex := mutex.unlock }

/-- What a component makes of its use by a request. -/
def perform (t : ι) (out : Outgoing) : Use → Machine ι
  | .resolve _ _ _ => m
  | .acquire order origin =>
    let (lease, pool) := ConnectionPool.acquire order m.clockMs origin m.pool
    { m with pool }.goto t (.requesting { out with lease })
  | .engineRequest _ _ => m
  | .release lease success => { m with pool := ConnectionPool.release m.clockMs lease success m.pool }
  | .reportConnectionResult order host ip networkEpoch success rttMs =>
    { m with resolver :=
        Dns.reportConnectionResult m.clockMs order host ip networkEpoch success rttMs m.resolver }
  | .observe success rttMs =>
    { m with
      prober := (Prober.observe {} m.clockMs success rttMs m.prober).1
      observedUnder := m.observedUnder ++ [out.context.networkEpoch] }

/-- The prober starts over, and what it says then is the last quality. -/
def resetProber (t : ι) (net : Network) (before : QualitySnapshot) (epoch : ℕ) : Machine ι :=
  let prober := (Prober.onNetworkChange m.clockMs epoch net m.prober).1
  { m with prober, lastQuality := prober.snapshot, observedUnder := [] }.goto t
    (.changing net before (.probed epoch prober.snapshot))

/-- `publish_quality_change` returns without publishing. -/
def Refuses (snapshot : QualitySnapshot) : Prop :=
  snapshot.networkEpoch < m.lastQuality.networkEpoch ∨
    snapshot.networkEpoch = m.lastQuality.networkEpoch ∧ snapshot.lastSampleMs < m.lastQuality.lastSampleMs

instance refusesDecidable (snapshot : QualitySnapshot) : Decidable (m.Refuses snapshot) :=
  inferInstanceAs (Decidable (_ ∨ _))

/-- The locked section of `publish_quality_change`. -/
def publish (t : ι) (snapshot : QualitySnapshot) : Machine ι :=
  if m.Refuses snapshot then m.goto t .idle
  else { m with lastQuality := snapshot }.goto t (.delivering snapshot)

/-- A search of the pool meets the entries in some order. -/
def CanUse : Use → Prop
  | .acquire order _ => order.Perm m.pool.entries.entries
  | _ => True

instance canUseDecidable : (use : Use) → Decidable (m.CanUse use)
  | .acquire order _ => inferInstanceAs (Decidable (order.Perm _))
  | .resolve _ _ _ => inferInstanceAs (Decidable True)
  | .engineRequest _ _ => inferInstanceAs (Decidable True)
  | .release _ _ => inferInstanceAs (Decidable True)
  | .reportConnectionResult _ _ _ _ _ _ => inferInstanceAs (Decidable True)
  | .observe _ _ => inferInstanceAs (Decidable True)

/-- One step, when it can be taken. -/
def act : Act ι → Option (Machine ι)
  | .tick ms => some { m with clockMs := m.clockMs + ms }
  | .lookup cache activeLookups => some { m with resolver := { m.resolver with cache, activeLookups } }
  | .enter t req policy startedMs =>
    match m.phase t with
    | .idle =>
      if startedMs ≤ m.clockMs then
        (m.mutex.lockShared t).map fun mutex => { m with mutex }.goto t (.entered req policy startedMs)
      else none
    | _ => none
  | .readQuality t =>
    match m.phase t with
    | .entered req policy startedMs => some (m.goto t (.ready req policy startedMs m.prober.snapshot))
    | _ => none
  | .readEpoch t =>
    match m.phase t with
    | .ready req policy startedMs before =>
      let context := initialContext m.config req policy startedMs m.nextRequestId m.networkEpoch
      some ({ m with nextRequestId := m.nextRequestId + 1 }.goto t (.requesting { before, context }))
    | _ => none
  | .use t op =>
    match m.phase t with
    | .requesting out => if m.CanUse (out.use op) then some (m.perform t out (out.use op)) else none
    | _ => none
  | .measure t =>
    match m.phase t with
    | .requesting out => some (m.goto t (.measured out.before m.prober.snapshot))
    | _ => none
  | .leave t =>
    match m.phase t with
    | .measured before after =>
      some ({ m with mutex := m.mutex.unlockShared t }.goto t
        (if qualityChanged before after then .publishing after else .idle))
    | _ => none
  | .change t net =>
    match m.phase t with
    | .idle =>
      (m.mutex.lock t).map fun mutex => { m with mutex }.goto t (.changing net m.prober.snapshot .begun)
    | _ => none
  | .bump t =>
    match m.phase t with
    | .changing net before .begun =>
      let epoch := m.networkEpoch + 1
      some ({ m with networkEpoch := epoch }.goto t (.changing net before (.bumped epoch)))
    | _ => none
  | .resetProber t =>
    match m.phase t with
    | .changing net before (.bumped epoch) => some (m.resetProber t net before epoch)
    | _ => none
  | .resetPool t =>
    match m.phase t with
    | .changing net before (.probed epoch after) =>
      some ({ m with pool := ConnectionPool.onNetworkChange epoch m.pool }.goto t
        (.changing net before (.pooled epoch after)))
    | _ => none
  | .resetResolver t =>
    match m.phase t with
    | .changing net before (.pooled epoch after) =>
      some ({ m with resolver := Dns.onNetworkChange epoch m.resolver }.goto t
        (.changing net before (.resolved after)))
    | _ => none
  | .tellResolver t =>
    match m.phase t with
    | .changing net before (.resolved after) =>
      some ({ m with resolver := Dns.onQualityChange after m.resolver }.goto t
        (.changing net before (.told after)))
    | _ => none
  | .unlock t =>
    match m.phase t with
    | .changing _ before (.told after) =>
      some ({ m with mutex := m.mutex.unlock }.goto t (.migrating before after))
    | _ => none
  | .beginMigrate t =>
    match m.phase t with
    | .migrating before after =>
      some ({ m with pool := ConnectionPool.beginMigrate m.pool }.goto t (.migrated before after))
    | _ => none
  | .endMigrate t result =>
    match m.phase t with
    | .migrated before after =>
      some ({ m with pool := ConnectionPool.endMigrate result m.pool }.goto t
        (if networkQualityChanged before after then .publishing after else .idle))
    | _ => none
  | .subscribe t =>
    match m.phase t with
    | .idle => m.locked t fun m => m.goto t (.publishing m.lastQuality)
    | _ => none
  | .publish t =>
    match m.phase t with
    | .publishing snapshot => m.locked t fun m => m.publish t snapshot
    | _ => none
  | .deliver t =>
    match m.phase t with
    | .delivering snapshot =>
      some ({ m with resolver := Dns.onQualityChange snapshot m.resolver }.goto t .idle)
    | _ => none

end Machine

/-- The steps of the threads. -/
def Steps {ι : Type} [DecidableEq ι] (m : Machine ι) (a : Act ι) (m' : Machine ι) : Prop :=
  m.act a = some m'

theorem steps_deterministic {ι : Type} [DecidableEq ι] (m : Machine ι) (a : Act ι) (m₁ m₂ : Machine ι)
    (h₁ : Steps m a m₁) (h₂ : Steps m a m₂) : m₁ = m₂ :=
  Option.some.inj (h₁.symm.trans h₂)

/-- A client as constructed. -/
def init (ι : Type) (config : ClientConfig) (dnsConfig : Dns.Config) (maxOrigins startMs : ℕ) :
    Machine ι where
  config := config
  clockMs := startMs
  pool := ConnectionPool.new maxOrigins
  resolver := { config := dnsConfig }

end Threads

end Client

end AsterNet
