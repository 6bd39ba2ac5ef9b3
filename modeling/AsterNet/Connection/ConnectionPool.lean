import AsterNet.Connection.Pool
import AsterNet.Lib.Numeral
import AsterNet.Lib.Transition
import AsterNet.Lib.UnorderedMap

/-!
# The connection pool (`connection_pool.cpp`)

Every member function of `ConnectionPoolImpl` over the state behind its mutex.  The maps are unordered, so
`acquire` takes the order in which its search for room meets the entries.  `prefetch` and `migrate` call
their handlers between two sections, and are modelled by the sections.

What any number of threads make of a pool is a sequence of `Op`s.  `Machine` keeps the pool together with
the history of the leases, newest first: `outstanding` are the leases that are held, and `lastUse` is the
last use of an entry.
-/

namespace AsterNet

namespace ConnectionPool

open ByteString

/-- `static_cast<int>` of a protocol. -/
def protocolCode : Protocol → ℕ
  | .unknown => 0
  | .http11 => 1
  | .http2 => 2
  | .http3 => 3

/-- `key_for`. -/
def keyFor (origin : Origin) : Bytes :=
  origin.host ++ 10 :: decimal origin.port.toNat ++ 10 :: decimal (protocolCode origin.protocol)
    ++ 10 :: decimal origin.networkEpoch

/-- `State::Entry`. -/
structure Entry where
  activeLeases : ℕ := 0
  successfulRequests : ℕ := 0
  failedRequests : ℕ := 0
  lastUsedMs : ℤ := 0
  deriving DecidableEq, Repr

/-- The entries, keyed by origin. -/
abbrev Entries := AList fun _ : Bytes => Entry

/-- `ConnectionPoolImpl::State`. -/
structure State where
  maxOrigins : ℕ
  nextLeaseId : ℕ := 1
  networkEpoch : ℕ := 0
  prefetches : ℕ := 0
  migrations : ℕ := 0
  evictions : ℕ := 0
  lastPrefetchResult : Result := .errUnsupported
  lastMigrationResult : Result := .errUnsupported
  entries : Entries := ∅
  leases : AList (fun _ : ℕ => Bytes) := ∅

/-- `PoolSnapshot`. -/
structure PoolSnapshot where
  origins : ℕ := 0
  activeLeases : ℕ := 0
  prefetches : ℕ := 0
  migrations : ℕ := 0
  evictions : ℕ := 0
  lastPrefetchResult : Result := .errUnsupported
  lastMigrationResult : Result := .errUnsupported
  networkEpoch : ℕ := 0
  deriving DecidableEq, Repr

/-- The constructor. -/
def new (maxOrigins : ℕ) : State := { maxOrigins := if maxOrigins = 0 then 1 else maxOrigins }

/-- The first section of `prefetch`. -/
def beginPrefetch (s : State) : State := { s with prefetches := s.prefetches + 1 }

/-- The last section of `prefetch`. -/
def endPrefetch (result : Result) (s : State) : State := { s with lastPrefetchResult := result }

/-- The first section of `migrate`. -/
def beginMigrate (s : State) : State := { s with migrations := s.migrations + 1 }

/-- The last section of `migrate`. -/
def endMigrate (result : Result) (s : State) : State := { s with lastMigrationResult := result }

/-- `evict_all`. -/
def evictAll (s : State) : State :=
  { s with evictions := s.evictions + s.entries.entries.length, entries := ∅, leases := ∅ }

/-- `on_network_change`. -/
def onNetworkChange (networkEpoch : ℕ) (s : State) : State := { evictAll s with networkEpoch }

/-- One round of the search for the oldest idle entry. -/
def older (oldest : Option (Σ _ : Bytes, Entry)) (e : Σ _ : Bytes, Entry) : Option (Σ _ : Bytes, Entry) :=
  if e.2.activeLeases ≠ 0 then oldest
  else if oldest.all fun o => e.2.lastUsedMs < o.2.lastUsedMs then some e
  else oldest

/-- The entry `acquire` evicts when it meets the entries in this order. -/
def oldestIdle (order : List (Σ _ : Bytes, Entry)) : Option (Σ _ : Bytes, Entry) :=
  order.foldl older none

/-- The pool without its oldest idle entry, if there is one. -/
def evictOldest (order : List (Σ _ : Bytes, Entry)) (s : State) : State :=
  match oldestIdle order with
  | some oldest => { s with entries := s.entries.erase oldest.1, evictions := s.evictions + 1 }
  | none => s

/-- A new origin finds every place taken. -/
def IsFull (key : Bytes) (s : State) : Prop := s.maxOrigins ≤ s.entries.entries.length ∧ key ∉ s.entries

instance isFullDecidable (key : Bytes) (s : State) : Decidable (IsFull key s) :=
  inferInstanceAs (Decidable (_ ∧ _))

/-- The end of `acquire`: a new lease on the entry of the origin, made here if there is none. -/
def lease (nowMs : ℤ) (origin : Origin) (s : State) : ConnectionLease × State :=
  let key := keyFor origin
  let entry := (s.entries.lookup key).getD {}
  ({ origin, id := s.nextLeaseId, valid := true, reused := false },
    { s with
      entries := s.entries.insert key
        { entry with activeLeases := entry.activeLeases + 1, lastUsedMs := nowMs }
      nextLeaseId := s.nextLeaseId + 1
      leases := s.leases.insert s.nextLeaseId key })

@[simp] theorem lease_fst_origin (nowMs : ℤ) (origin : Origin) (s : State) :
    (lease nowMs origin s).1.origin = origin := rfl

/-- The lease of a failed `acquire`. -/
def noLease : ConnectionLease := { origin := { host := [] } }

/-- `acquire`. -/
def acquire (order : List (Σ _ : Bytes, Entry)) (nowMs : ℤ) (origin : Origin) (s : State) :
    ConnectionLease × State :=
  if origin.host.isEmpty then (noLease, s)
  else if IsFull (keyFor origin) s then
    let s := evictOldest order s
    if s.maxOrigins ≤ s.entries.entries.length then (noLease, s) else lease nowMs origin s
  else lease nowMs origin s

/-- What `release` makes of an entry. -/
def Entry.released (nowMs : ℤ) (success : Bool) (entry : Entry) : Entry where
  activeLeases := if 0 < entry.activeLeases then entry.activeLeases - 1 else entry.activeLeases
  successfulRequests := if success then entry.successfulRequests + 1 else entry.successfulRequests
  failedRequests := if success then entry.failedRequests else entry.failedRequests + 1
  lastUsedMs := nowMs

/-- `release`. -/
def release (nowMs : ℤ) (lease : ConnectionLease) (success : Bool) (s : State) : State :=
  if lease.valid = false ∨ lease.id = 0 then s
  else
    match s.leases.lookup lease.id with
    | none => s
    | some key =>
      { s with
        entries :=
          match s.entries.lookup key with
          | some entry => s.entries.insert key (entry.released nowMs success)
          | none => s.entries
        leases := s.leases.erase lease.id }

/-- `snapshot`. -/
def snapshot (s : State) : PoolSnapshot where
  origins := s.entries.entries.length
  activeLeases := s.leases.entries.length
  prefetches := s.prefetches
  migrations := s.migrations
  evictions := s.evictions
  lastPrefetchResult := s.lastPrefetchResult
  lastMigrationResult := s.lastMigrationResult
  networkEpoch := s.networkEpoch

/-! ### Histories -/

/-- What happens to leases. -/
inductive Event
  | acquired (nowMs : ℤ) (lease : ConnectionLease)
  | released (nowMs : ℤ) (lease : ConnectionLease)
  | cleared
  deriving DecidableEq, Repr

/-- The leases a history hands out, newest first. -/
def handedOut : List Event → List ConnectionLease
  | [] => []
  | .acquired _ lease :: history => lease :: handedOut history
  | .released _ _ :: history => handedOut history
  | .cleared :: history => handedOut history

/-- The leases that are held after a history, newest first.  A lease is known by its id. -/
def outstanding : List Event → List ConnectionLease
  | [] => []
  | .acquired _ lease :: history => lease :: outstanding history
  | .released _ lease :: history =>
    if lease.valid then (outstanding history).filter fun held => held.id != lease.id
    else outstanding history
  | .cleared :: _ => []

/-- The last time a history uses an entry. -/
def lastUse (key : Bytes) : List Event → Option ℤ
  | [] => none
  | .acquired nowMs lease :: history =>
    if keyFor lease.origin = key then some nowMs else lastUse key history
  | .released nowMs lease :: history =>
    if lease.valid ∧ ∃ held ∈ outstanding history, held.id = lease.id ∧ keyFor held.origin = key then
      some nowMs
    else lastUse key history
  | .cleared :: _ => none

/-- A section under the pool's mutex. -/
inductive Op
  | acquire (order : List (Σ _ : Bytes, Entry)) (nowMs : ℤ) (origin : Origin)
  | release (nowMs : ℤ) (lease : ConnectionLease) (success : Bool)
  | evictAll
  | onNetworkChange (networkEpoch : ℕ)
  | beginPrefetch
  | endPrefetch (result : Result)
  | beginMigrate
  | endMigrate (result : Result)

/-- A pool and the history of its leases. -/
structure Machine where
  pool : State
  history : List Event := []

namespace Machine

/-- The machine after a section. -/
def apply (m : Machine) : Op → Machine
  | .acquire order nowMs origin =>
    let (lease, pool) := ConnectionPool.acquire order nowMs origin m.pool
    { pool, history := if lease.valid then .acquired nowMs lease :: m.history else m.history }
  | .release nowMs lease success =>
    { pool := ConnectionPool.release nowMs lease success m.pool
      history := .released nowMs lease :: m.history }
  | .evictAll => { pool := ConnectionPool.evictAll m.pool, history := .cleared :: m.history }
  | .onNetworkChange networkEpoch =>
    { pool := ConnectionPool.onNetworkChange networkEpoch m.pool, history := .cleared :: m.history }
  | .beginPrefetch => { m with pool := ConnectionPool.beginPrefetch m.pool }
  | .endPrefetch result => { m with pool := ConnectionPool.endPrefetch result m.pool }
  | .beginMigrate => { m with pool := ConnectionPool.beginMigrate m.pool }
  | .endMigrate result => { m with pool := ConnectionPool.endMigrate result m.pool }

/-- A search meets the entries of the pool in some order. -/
def Step (m : Machine) (op : Op) (m' : Machine) : Prop :=
  (∀ order nowMs origin, op = .acquire order nowMs origin → order.Perm m.pool.entries.entries) ∧
    m' = m.apply op

end Machine

end ConnectionPool

end AsterNet
