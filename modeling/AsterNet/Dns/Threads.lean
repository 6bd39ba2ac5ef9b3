import AsterNet.Dns.Resolver
import AsterNet.Lib.Transition

/-!
# Concurrent calls on the resolver

`resolve_with_metadata` holds the lock of the resolver only in short sections: the cache lookup, the
reading of the quality, taking a lookup slot, and the write back.  Between them it waits for lookup
threads.  The machine takes one section at a time, so that any number of calls, lookup threads and calls
of the other operations interleave.  The sections are those of `Dns.Resolver`; clock readings are
inputs, of which nothing is assumed.

The history says which lookups answered, which calls of `set_httpdns_lookup`, `invalidate` and
`set_backup_ips` were made, and what the calls returned.  An `Origin` says how much of the history was
there when a list of addresses was obtained.
-/

namespace AsterNet.Dns

namespace Threads

/-- A live tier. -/
inductive Tier
  | httpDns
  | localDns
  deriving DecidableEq, Repr

/-- How and when addresses were obtained, by the length of the history. -/
structure Origin where
  via : Via := .nothing
  obtainedAt : ℕ := 0
  /-- When the HttpDNS function that answered was copied; for other addresses when they were obtained. -/
  providerAt : ℕ := 0
  deriving DecidableEq, Repr

/-- What became of a live tier in a call. -/
inductive Passage
  | unreached
  /-- There were addresses already. -/
  | notNeeded
  /-- No HttpDNS function is there. -/
  | absent
  /-- The clock was not before the deadline. -/
  | late (nowMs : ℤ)
  | offline
  /-- So many lookups were active. -/
  | full (active : ℕ)
  /-- The thread could not be created. -/
  | noThread
  /-- The deadline came before the answer. -/
  | unanswered
  /-- These addresses are left of the answer. -/
  | answered (addresses : List IpResult)
  deriving DecidableEq, Repr

/-- The locals of `resolve_with_metadata`, and when its steps were made. -/
structure Call where
  host : Bytes
  networkEpoch : ℕ
  timeoutMs : ℤ
  startedMs : ℤ
  deadlineMs : ℤ := 0
  read : CacheRead := { httpdnsLookup := false, backupIps := [] }
  allowLiveLookup : Bool := true
  addresses : List IpResult := []
  lookupTimedOut : Bool := false
  via : Via := .nothing
  httpDns : Passage := .unreached
  localDns : Passage := .unreached
  startedAt : ℕ := 0
  readAt : ℕ := 0
  answeredAt : ℕ := 0
  /-- The origin of the cache entry. -/
  cached : Origin := {}
  deriving DecidableEq, Repr

/-- A call that begins. -/
def Call.new (host : Bytes) (networkEpoch : ℕ) (timeoutMs startedMs : ℤ) (now : ℕ) : Call where
  host := host
  networkEpoch := networkEpoch
  timeoutMs := timeoutMs
  startedMs := startedMs
  startedAt := now
  readAt := now
  answeredAt := now
  cached := ⟨.nothing, now, now⟩

/-- The origin of the addresses of a call. -/
def Call.origin (c : Call) : Origin :=
  match c.via with
  | .fresh => c.cached
  | .stale => c.cached
  | .httpDns => ⟨.httpDns, c.answeredAt, c.readAt⟩
  | .localDns => ⟨.localDns, c.answeredAt, c.answeredAt⟩
  | via => ⟨via, c.readAt, c.readAt⟩

/-- Where a call is. -/
inductive Stage
  | started
  | looked
  | gate (tier : Tier)
  | creating (tier : Tier)
  | waiting (tier : Tier)
  | writing
  | finishing
  deriving DecidableEq, Repr

/-- A resolver with the calls of `resolve_with_metadata` that are under way. -/
structure Machine (ι : Type) where
  st : State
  calls : ι → Option (Stage × Call) := fun _ => none
  /-- The origins of the cache entries. -/
  origins : Bytes → Origin := fun _ => {}
  /-- Lookup threads nobody waits for any more. -/
  abandoned : ℕ := 0
  /-- Lookup threads that have answered and still hold their slot. -/
  answered : ℕ := 0

/-- What happened. -/
inductive Event
  /-- A lookup that a call with this host and epoch made gave these addresses. -/
  | answered (tier : Tier) (host : Bytes) (networkEpoch : ℕ) (addresses : List IpResult)
  /-- `set_httpdns_lookup`. -/
  | replaced
  /-- `invalidate`. -/
  | invalidated (host : Bytes)
  /-- `set_backup_ips`. -/
  | configured (host : Bytes) (addresses : List IpResult)
  /-- `resolve_with_metadata` returned. -/
  | returned (call : Call) (result : ResolveResult)
  deriving DecidableEq, Repr

/-- A section of a call. -/
inductive Act (ι : Type)
  | begin (t : ι) (host : Bytes) (networkEpoch : ℕ) (timeoutMs startedMs finishedMs : ℤ)
  | look (t : ι) (nowMs : ℤ)
  | readQuality (t : ι)
  | gate (t : ι) (nowMs : ℤ)
  | create (t : ι) (created : Bool)
  | answerHttpDns (t : ι) (addresses : List IpResult)
  | answerLocalDns (t : ι) (raw : List AddrInfo)
  | giveUp (t : ι) (nowMs : ℤ)
  /-- A thread nobody waits for answers. -/
  | answerLate
  /-- A thread that has answered gives its slot back. -/
  | endLookup
  | write (t : ι) (nowMs : ℤ) (evict : ℕ)
  | finish (t : ι) (nowMs : ℤ)
  | invalidate (host : Bytes)
  | setHttpdnsLookup (httpdnsLookup : Bool)
  | setBackupIps (host : Bytes) (addresses : List IpResult)
  | report (nowMs : ℤ) (order : ℕ) (host ip : Bytes) (networkEpoch : ℕ) (success : Bool) (rttMs : ℤ)
  | qualityChange (snapshot : QualitySnapshot)
  | networkChange (networkEpoch : ℕ)

section

variable (inet : Inet)

/-- The answer for an empty host and for a literal. -/
def immediate (config : Config) (host : Bytes) (elapsedMs : ℤ) : Option ResolveResult :=
  if host.isEmpty then some { error := .errInvalidArgument }
  else if (isNumericIp inet host).isSome then
    match isSafeIp inet host config.allowPrivateAddresses with
    | none => some { error := .errDns, elapsedMs }
    | some ipv6 =>
      some { addresses := [{ ip := host, ipv6, score := 10000, source := .literal }], elapsedMs }
  else none

namespace Call

variable (c : Call)

/-- Why a call does not start a lookup of this tier. -/
def refusal (tier : Tier) (nowMs : ℤ) (config : Config) (active : ℕ) : Option Passage :=
  if !c.addresses.isEmpty then some .notNeeded
  else if tier = .httpDns ∧ c.read.httpdnsLookup = false then some .absent
  else if c.deadlineMs ≤ nowMs then some (.late nowMs)
  else if !c.allowLiveLookup then some .offline
  else if config.maxActiveLookups ≤ active then some (.full active)
  else none

/-- The last part before the write back: backup addresses, the stale entry, and the `remove_if`. -/
def settle (st : State) : Call :=
  let s := fallBack c.read { addresses := c.addresses, via := c.via, st }
  { c with addresses := filterFinal inet st.config.allowPrivateAddresses s.addresses, via := s.via }

/-- A call has the answer of a tier. -/
def serve (via : Via) (addresses : List IpResult) (answeredAt : ℕ) : Call :=
  { c with addresses, via, answeredAt }

/-- A full pool and a missed deadline set `lookup_timed_out`. -/
def timedOut : Passage → Bool
  | .full _ => true
  | .unanswered => true
  | _ => c.lookupTimedOut

/-- A call goes on behind a tier. -/
def leave (st : State) (tier : Tier) (passage : Passage) : Stage × Call :=
  let c := { c with lookupTimedOut := c.timedOut passage }
  match tier with
  | .httpDns => (.gate .localDns, { c with httpDns := passage })
  | .localDns => (.writing, { c with localDns := passage }.settle inet st)

/-- What a call returns. -/
def result (finishedMs : ℤ) : ResolveResult where
  addresses := c.addresses
  error := if !c.addresses.isEmpty then .ok else if c.lookupTimedOut then .errTimeout else .errDns
  elapsedMs := finishedMs - c.startedMs
  cacheHit := c.read.cacheHit || c.via == .stale

end Call

namespace Machine

variable {ι : Type} (m : Machine ι) (h : List Event)

/-- The state of the resolver changes. -/
def withState (st : State) : Machine ι := { m with st }

@[simp] theorem withState_st (st : State) : (m.withState st).st = st := rfl
@[simp] theorem withState_calls (st : State) : (m.withState st).calls = m.calls := rfl
@[simp] theorem withState_origins (st : State) : (m.withState st).origins = m.origins := rfl

variable [DecidableEq ι]

/-- A call moves on. -/
def goto (t : ι) (call : Option (Stage × Call)) : Machine ι :=
  { m with calls := Function.update m.calls t call }

@[simp] theorem goto_st (t : ι) (call : Option (Stage × Call)) : (m.goto t call).st = m.st := rfl
@[simp] theorem goto_origins (t : ι) (call : Option (Stage × Call)) :
    (m.goto t call).origins = m.origins := rfl

@[simp] theorem goto_calls_self (t : ι) (call : Option (Stage × Call)) :
    (m.goto t call).calls t = call := by
  simp [goto]

theorem goto_calls_of_ne {t u : ι} (h : u ≠ t) (call : Option (Stage × Call)) :
    (m.goto t call).calls u = m.calls u := by
  simp [goto, h]

/-- `resolve_with_metadata` is called. -/
def begin (t : ι) (host : Bytes) (networkEpoch : ℕ) (timeoutMs startedMs finishedMs : ℤ) :
    Machine ι × List Event :=
  let call : Call := .new host networkEpoch timeoutMs startedMs h.length
  match immediate inet m.st.config host (finishedMs - startedMs) with
  | some result => (m, [.returned { call with via := .literal } result])
  | none => (m.goto t (some (.started, call)), [])

/-- The origin of the entry of a key. -/
def cachedOrigin (key : Bytes) : Origin :=
  if key ∈ m.st.cache then m.origins key else ⟨.nothing, h.length, h.length⟩

/-- The first locked section. -/
def look (t : ι) (c : Call) (nowMs : ℤ) : Machine ι :=
  let read := readCache nowMs c.host c.networkEpoch m.st
  let effectiveTimeoutMs := if 0 < c.timeoutMs then c.timeoutMs else m.st.config.defaultLookupTimeoutMs
  m.goto t (some (.looked,
    { c with
      read
      addresses := read.addresses
      via := .fresh
      deadlineMs := c.startedMs + max 1 effectiveTimeoutMs
      readAt := h.length
      cached := m.cachedOrigin h (cacheKey c.host c.networkEpoch) }))

/-- The section that reads the quality. -/
def readQuality (t : ι) (c : Call) : Machine ι :=
  m.goto t (some (.gate .httpDns, { c with allowLiveLookup := m.st.quality.quality != .offline }))

/-- The condition of a tier, and the first section of `run_bounded_lookup`. -/
def gate (t : ι) (tier : Tier) (c : Call) (nowMs : ℤ) : Machine ι :=
  match c.refusal tier nowMs m.st.config m.st.activeLookups with
  | some passage => m.goto t (some (c.leave inet m.st tier passage))
  | none =>
    (m.withState { m.st with activeLookups := m.st.activeLookups + 1 }).goto t (some (.creating tier, c))

/-- The thread is created, or the slot is given back. -/
def create (t : ι) (tier : Tier) (c : Call) (created : Bool) : Machine ι :=
  if created then m.goto t (some (.waiting tier, c))
  else
    (m.withState { m.st with activeLookups := m.st.activeLookups - 1 }).goto t
      (some (c.leave inet m.st tier .noThread))

/-- HttpDNS answers in time; an exception is an empty answer. -/
def answerHttpDns (t : ι) (c : Call) (addresses : List IpResult) : Machine ι × List Event :=
  let safe := filterHttpDns inet m.st.config.allowPrivateAddresses addresses
  let c' := c.serve .httpDns safe h.length
  ({ m with answered := m.answered + 1 }.goto t (some (c'.leave inet m.st .httpDns (.answered safe))),
    [.answered .httpDns c.host c.networkEpoch addresses])

/-- LocalDNS answers in time. -/
def answerLocalDns (t : ι) (c : Call) (raw : List AddrInfo) : Machine ι × List Event :=
  let safe := resolveLocal inet raw m.st.config.allowPrivateAddresses
  let c' := c.serve .localDns safe h.length
  ({ m with answered := m.answered + 1 }.goto t (some (c'.leave inet m.st .localDns (.answered safe))),
    [.answered .localDns c.host c.networkEpoch safe])

/-- The deadline comes before the answer. -/
def giveUp (t : ι) (tier : Tier) (c : Call) : Machine ι :=
  { m with abandoned := m.abandoned + 1 }.goto t (some (c.leave inet m.st tier .unanswered))

/-- The last locked section. -/
def write (t : ι) (c : Call) (nowMs : ℤ) (evict : ℕ) : Machine ι :=
  let (addresses, st) := writeBack nowMs evict c.host c.networkEpoch c.addresses m.st
  let origins := if addresses.isEmpty then m.origins
    else Function.update m.origins (cacheKey c.host c.networkEpoch) c.origin
  { m with st, origins }.goto t (some (.finishing, { c with addresses }))

/-- One section, when it can run. -/
def act : Act ι → Option (Machine ι × List Event)
  | .begin t host networkEpoch timeoutMs startedMs finishedMs =>
    match m.calls t with
    | none => some (m.begin inet h t host networkEpoch timeoutMs startedMs finishedMs)
    | some _ => none
  | .look t nowMs =>
    match m.calls t with
    | some (.started, c) => some (m.look h t c nowMs, [])
    | _ => none
  | .readQuality t =>
    match m.calls t with
    | some (.looked, c) => some (m.readQuality t c, [])
    | _ => none
  | .gate t nowMs =>
    match m.calls t with
    | some (.gate tier, c) => some (m.gate inet t tier c nowMs, [])
    | _ => none
  | .create t created =>
    match m.calls t with
    | some (.creating tier, c) => some (m.create inet t tier c created, [])
    | _ => none
  | .answerHttpDns t addresses =>
    match m.calls t with
    | some (.waiting .httpDns, c) => some (m.answerHttpDns inet h t c addresses)
    | _ => none
  | .answerLocalDns t raw =>
    match m.calls t with
    | some (.waiting .localDns, c) => some (m.answerLocalDns inet h t c raw)
    | _ => none
  | .giveUp t nowMs =>
    match m.calls t with
    | some (.waiting tier, c) =>
      if c.deadlineMs ≤ nowMs then some (m.giveUp inet t tier c, []) else none
    | _ => none
  | .answerLate =>
    if 0 < m.abandoned then
      some ({ m with abandoned := m.abandoned - 1, answered := m.answered + 1 }, [])
    else none
  | .endLookup =>
    if 0 < m.answered then
      some ({ m with
        answered := m.answered - 1
        st := { m.st with activeLookups := m.st.activeLookups - 1 } }, [])
    else none
  | .write t nowMs evict =>
    match m.calls t with
    | some (.writing, c) => some (m.write t c nowMs evict, [])
    | _ => none
  | .finish t nowMs =>
    match m.calls t with
    | some (.finishing, c) => some (m.goto t none, [.returned c (c.result nowMs)])
    | _ => none
  | .invalidate host => some (m.withState (Dns.invalidate host m.st), [.invalidated host])
  | .setHttpdnsLookup httpdnsLookup =>
    some (m.withState (Dns.setHttpdnsLookup httpdnsLookup m.st), [.replaced])
  | .setBackupIps host addresses =>
    some (m.withState (Dns.setBackupIps inet host addresses m.st), [.configured host addresses])
  | .report nowMs order host ip networkEpoch success rttMs =>
    some (m.withState (reportConnectionResult nowMs order host ip networkEpoch success rttMs m.st), [])
  | .qualityChange snapshot => some (m.withState (onQualityChange snapshot m.st), [])
  | .networkChange networkEpoch => some (m.withState (onNetworkChange networkEpoch m.st), [])

end Machine

end

/-- A machine with what happened so far. -/
abbrev Trace (ι : Type) := Machine ι × List Event

/-- A resolver as constructed. -/
def init (ι : Type) (config : Config) (httpdnsLookup : Bool) : Trace ι :=
  ({ st := { config, httpdnsLookup } }, [])

/-- One section, with what it adds to the history. -/
def next (inet : Inet) {ι : Type} [DecidableEq ι] (s : Trace ι) (a : Act ι) : Option (Trace ι) :=
  (s.1.act inet s.2 a).map fun r => (r.1, s.2 ++ r.2)

/-- The steps of the calls. -/
def Steps (inet : Inet) {ι : Type} [DecidableEq ι] (s : Trace ι) (a : Act ι) (s' : Trace ι) : Prop :=
  next inet s a = some s'

end Threads

end AsterNet.Dns
