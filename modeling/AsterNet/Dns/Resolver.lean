import AsterNet.Dns.SafeIp
import AsterNet.Lib.Numeral
import AsterNet.Lib.UnorderedMap
import AsterNet.Sdt.Quality

/-!
# The resolver (`dns_resolver.cpp`)

`SmartDnsResolverImpl` as functions on its `State`.  Everything a call takes from outside comes in as
data: the clock readings in the order the code takes them, what the two live lookups answered, and
the choices of the iteration order of an `unordered_map`.  The locked sections of
`resolve_with_metadata` are functions of their own (`readCache`, `writeBack`).

A `Resolution` is the result of one call together with the facts about it that the code does not
return: how the addresses were obtained (`Via`) and when the cache was read and written.
-/

namespace AsterNet.Dns

/-- `ResolutionSource`. -/
inductive ResolutionSource
  | httpDns
  | localDns
  | backup
  | literal
  deriving DecidableEq, Repr

/-- `IpResult`; a larger score is better. -/
structure IpResult where
  ip : Bytes
  rttMs : ℤ := -1
  lossRate : ℤ := -1
  score : ℤ := 0
  ipv6 : Bool := false
  source : ResolutionSource := .localDns
  deriving DecidableEq, Repr

/-- `ResolveResult`. -/
structure ResolveResult where
  addresses : List IpResult := []
  error : Result := .ok
  elapsedMs : ℤ := 0
  cacheHit : Bool := false
  deriving DecidableEq, Repr

/-- `SmartDnsResolverImpl::Config`. -/
structure Config where
  ttlMs : ℤ := 300000
  staleTtlMs : ℤ := 60000
  maxCacheEntries : ℕ := 128
  maxHealthEntries : ℕ := 512
  maxActiveLookups : ℕ := 4
  defaultLookupTimeoutMs : ℤ := 3000
  allowPrivateAddresses : Bool := false
  deriving DecidableEq, Repr

/-- `State::CacheEntry`. -/
structure CacheEntry where
  addresses : List IpResult
  expiresAtMs : ℤ
  staleUntilMs : ℤ
  deriving DecidableEq, Repr

/-- `State::Health`. -/
structure Health where
  rttMs : ℤ := -1
  failures : ℤ := 0
  successes : ℤ := 0
  updatedAtMs : ℤ := 0
  deriving DecidableEq, Repr

/-- `SmartDnsResolverImpl::State`.  Of the injected `HttpDnsLookup` only its presence is state; what
it answers is an input of each call. -/
structure State where
  config : Config := {}
  httpdnsLookup : Bool := false
  cache : AList fun _ : Bytes => CacheEntry := ∅
  health : AList fun _ : Bytes => Health := ∅
  backupIps : AList fun _ : Bytes => List IpResult := ∅
  quality : QualitySnapshot := {}
  lastNetworkEpoch : ℕ := 0
  activeLookups : ℕ := 0

/-- `cache_key`. -/
def cacheKey (host : Bytes) (networkEpoch : ℕ) : Bytes :=
  host ++ 10 :: ByteString.decimal networkEpoch

/-- `health_key`. -/
def healthKey (host ip : Bytes) (networkEpoch : ℕ) : Bytes :=
  cacheKey host networkEpoch ++ 10 :: ip

/-! ### Live lookups -/

/-- How a lookup thread serves the call that waits for it: it cannot be created, it does not finish
before the deadline, or it answers. -/
inductive LookupOutcome (α : Type)
  | threadFailed
  | late
  | answered (value : α)
  deriving DecidableEq, Repr

/-- One live lookup as the call meets it: the clock reading that gates it, how many lookup threads
have ended since the call last looked, and the outcome. -/
structure Lookup (α : Type) where
  nowMs : ℤ := 0
  ended : ℕ := 0
  outcome : LookupOutcome α
  deriving DecidableEq, Repr

/-- An element of the list `getaddrinfo` returns. -/
inductive AddrInfo
  | inet4 (address : Cidr.Addr 4)
  | inet6 (address : Cidr.Addr 16)
  | otherFamily

/-- `run_bounded_lookup`: the addresses it assigns, whether it set `lookup_timed_out`, the state. -/
def runBoundedLookup {α : Type} (lookup : Lookup α) (st : State) : Option α × Bool × State :=
  let active := st.activeLookups - lookup.ended
  if st.config.maxActiveLookups ≤ active then (none, true, { st with activeLookups := active })
  else
    match lookup.outcome with
    | .threadFailed => (none, false, { st with activeLookups := active })
    | .late => (none, true, { st with activeLookups := active + 1 })
    | .answered value => (some value, false, { st with activeLookups := active + 1 })

section

variable (inet : Inet)

/-- The numeric text of an address; `none` for the other families. -/
def AddrInfo.text : AddrInfo → Option Bytes
  | .inet4 a => some (inet.ntop4 a)
  | .inet6 a => some (inet.ntop6 a)
  | .otherFamily => none

/-- The loop of `resolve_local`; `seen` are the texts inserted so far. -/
def resolveLocalLoop (allowPrivateAddresses : Bool) : List AddrInfo → List Bytes → List IpResult
  | [], _ => []
  | item :: items, seen =>
    match item.text inet with
    | none => resolveLocalLoop allowPrivateAddresses items seen
    | some text =>
      match isSafeIp inet text allowPrivateAddresses with
      | none => resolveLocalLoop allowPrivateAddresses items seen
      | some ipv6 =>
        if text ∈ seen then resolveLocalLoop allowPrivateAddresses items seen
        else { ip := text, ipv6, source := .localDns } ::
          resolveLocalLoop allowPrivateAddresses items (text :: seen)

/-- `resolve_local` on the list `getaddrinfo` returned (empty where it failed). -/
def resolveLocal (raw : List AddrInfo) (allowPrivateAddresses : Bool) : List IpResult :=
  resolveLocalLoop inet allowPrivateAddresses raw []

/-- The `remove_if` over the answers of HttpDNS. -/
def filterHttpDns (allowPrivateAddresses : Bool) (addresses : List IpResult) : List IpResult :=
  addresses.filterMap fun item =>
    (isSafeIp inet item.ip allowPrivateAddresses).map fun ipv6 =>
      { item with ipv6, source := .httpDns }

/-- The `remove_if` every list of addresses passes last. -/
def filterFinal (allowPrivateAddresses : Bool) (addresses : List IpResult) : List IpResult :=
  addresses.filterMap fun item =>
    (isSafeIp inet item.ip allowPrivateAddresses).map fun ipv6 =>
      { item with
        ipv6
        source := if item.source ≠ .httpDns ∧ item.source ≠ .localDns then .backup else item.source }

end

/-! ### The locked sections -/

/-- What the first locked section copies out. -/
structure CacheRead where
  addresses : List IpResult := []
  cacheHit : Bool := false
  staleEntry : List IpResult := []
  hasStaleEntry : Bool := false
  httpdnsLookup : Bool
  backupIps : List IpResult
  deriving DecidableEq, Repr

/-- The cache lookup of `resolve_with_metadata`. -/
def readCache (nowMs : ℤ) (host : Bytes) (networkEpoch : ℕ) (st : State) : CacheRead :=
  let rest : CacheRead :=
    { httpdnsLookup := st.httpdnsLookup, backupIps := (st.backupIps.lookup host).getD [] }
  match st.cache.lookup (cacheKey host networkEpoch) with
  | none => rest
  | some cached =>
    { rest with
      addresses := if nowMs ≤ cached.expiresAtMs then cached.addresses else []
      cacheHit := nowMs ≤ cached.expiresAtMs
      staleEntry := cached.addresses
      hasStaleEntry := nowMs ≤ cached.staleUntilMs }

/-- `quality_penalty`. -/
def qualityPenalty (quality : NetworkQuality) (rtt : ℤ) : ℤ :=
  match quality with
  | .good => 0
  | .degraded => if rtt < 0 then 300 else 100
  | .bad => if rtt < 0 then 700 else 250
  | .offline => if rtt < 0 then 1000 else 500
  | .unknown => 50

/-- The RTT and the score of one address. -/
def rank (quality : NetworkQuality) (entry : Option Health) (item : IpResult) : IpResult :=
  let rtt := match entry with
    | some health => if 0 ≤ health.rttMs then health.rttMs else item.rttMs
    | none => item.rttMs
  let failures := (entry.map (·.failures)).getD 0
  let successes := (entry.map (·.successes)).getD 0
  let loss := if item.lossRate < 0 then 0 else item.lossRate
  let successBonus := if quality = .good then 0 else min 500 (successes * 100)
  let rttPenalty := if rtt < 0 then 500 else min 8000 (rtt * 2)
  { item with
    rttMs := rtt
    score := 10000 - rttPenalty - min 2000 (loss * 2) - min 4000 (failures * 500)
      - qualityPenalty quality rtt + successBonus }

/-- The order of the result: score descending, then address ascending. -/
def ranksBefore (left right : IpResult) : Bool :=
  if left.score ≠ right.score then right.score < left.score else left.ip < right.ip

/-- Ranking and `stable_sort`. -/
def rankAddresses (host : Bytes) (networkEpoch : ℕ) (st : State) (addresses : List IpResult) :
    List IpResult :=
  (addresses.map fun item =>
      rank st.quality.quality (st.health.lookup (healthKey host item.ip networkEpoch)) item).mergeSort
    fun left right => !ranksBefore right left

/-- The write back: a nonempty result becomes the entry of its key, stamped from `nowMs`. -/
def storeEntry (nowMs : ℤ) (evict : ℕ) (key : Bytes) (addresses : List IpResult) (st : State) :
    State :=
  if addresses.isEmpty then st
  else
    let cache := if st.config.maxCacheEntries ≤ st.cache.entries.length ∧ key ∉ st.cache then
      UnorderedMap.eraseFirst evict st.cache else st.cache
    { st with
      cache := cache.insert key ⟨addresses, nowMs + st.config.ttlMs,
        nowMs + st.config.ttlMs + st.config.staleTtlMs⟩ }

/-- The last locked section of `resolve_with_metadata`. -/
def writeBack (nowMs : ℤ) (evict : ℕ) (host : Bytes) (networkEpoch : ℕ) (addresses : List IpResult)
    (st : State) : List IpResult × State :=
  let addresses := rankAddresses host networkEpoch st addresses
  (addresses, storeEntry nowMs evict (cacheKey host networkEpoch) addresses st)

/-! ### `resolve_with_metadata` -/

/-- What one call takes from outside. -/
structure ResolveEnv where
  startedMs : ℤ
  cacheNowMs : ℤ
  httpdns : Lookup (List IpResult)
  localdns : Lookup (List AddrInfo)
  writeNowMs : ℤ
  finishedMs : ℤ
  evict : ℕ := 0

/-- Where the addresses of a result were obtained. -/
inductive Via
  | literal
  | fresh
  | httpDns
  | localDns
  | backup
  | stale
  | nothing
  deriving DecidableEq, Repr

/-- A result of `resolve_with_metadata` with how and when it came about. -/
structure Resolution where
  host : Bytes
  networkEpoch : ℕ
  result : ResolveResult
  via : Via := .nothing
  /-- The clock reading of the cache lookup. -/
  readAtMs : ℤ
  /-- The clock reading of the write back, the first one after a live lookup has answered. -/
  writtenAtMs : ℤ
  deriving DecidableEq, Repr

/-- Addresses, where they are from, whether a lookup timed out, the state. -/
structure Supply where
  addresses : List IpResult
  via : Via
  timedOut : Bool := false
  st : State

section

variable (inet : Inet)

/-- The HttpDNS tier. -/
def askHttpDns (lookup : Lookup (List IpResult)) (httpdnsLookup : Bool) (deadlineMs : ℤ)
    (allowLiveLookup : Bool) (s : Supply) : Supply :=
  if s.addresses.isEmpty && httpdnsLookup && lookup.nowMs < deadlineMs && allowLiveLookup then
    let (answer, timedOut, st) := runBoundedLookup lookup s.st
    { addresses := filterHttpDns inet st.config.allowPrivateAddresses (answer.getD s.addresses)
      via := .httpDns
      timedOut := s.timedOut || timedOut
      st }
  else s

/-- The LocalDNS tier. -/
def askLocalDns (lookup : Lookup (List AddrInfo)) (deadlineMs : ℤ) (allowLiveLookup : Bool)
    (s : Supply) : Supply :=
  if s.addresses.isEmpty && lookup.nowMs < deadlineMs && allowLiveLookup then
    let (answer, timedOut, st) := runBoundedLookup lookup s.st
    { addresses := match answer with
        | some raw => resolveLocal inet raw st.config.allowPrivateAddresses
        | none => s.addresses
      via := .localDns
      timedOut := s.timedOut || timedOut
      st }
  else s

/-- Backup addresses, then the stale entry. -/
def fallBack (read : CacheRead) (s : Supply) : Supply :=
  let s := if s.addresses.isEmpty then { s with addresses := read.backupIps, via := .backup } else s
  if s.addresses.isEmpty && read.hasStaleEntry then
    { s with addresses := read.staleEntry, via := .stale }
  else s

/-- The addresses of a host that is not a literal, from the first tier that has any. -/
def gather (env : ResolveEnv) (timeoutMs : ℤ) (read : CacheRead) (st : State) : Supply :=
  let effectiveTimeoutMs := if 0 < timeoutMs then timeoutMs else st.config.defaultLookupTimeoutMs
  let deadlineMs := env.startedMs + max 1 effectiveTimeoutMs
  let allowLiveLookup := st.quality.quality != .offline
  fallBack read <|
    askLocalDns inet env.localdns deadlineMs allowLiveLookup <|
      askHttpDns inet env.httpdns read.httpdnsLookup deadlineMs allowLiveLookup
        { addresses := read.addresses, via := .fresh, st }

/-- `resolve_with_metadata` for a host that is not a literal. -/
def resolveName (env : ResolveEnv) (host : Bytes) (networkEpoch : ℕ) (timeoutMs : ℤ) (st : State) :
    Resolution × State :=
  let read := readCache env.cacheNowMs host networkEpoch st
  let s := gather inet env timeoutMs read st
  let addresses := filterFinal inet s.st.config.allowPrivateAddresses s.addresses
  let (addresses, st) := writeBack env.writeNowMs env.evict host networkEpoch addresses s.st
  ({ host, networkEpoch
     result :=
      { addresses
        error := if !addresses.isEmpty then .ok else if s.timedOut then .errTimeout else .errDns
        elapsedMs := env.finishedMs - env.startedMs
        cacheHit := read.cacheHit || s.via == .stale }
     via := s.via
     readAtMs := env.cacheNowMs
     writtenAtMs := env.writeNowMs }, st)

/-- `resolve_with_metadata`. -/
def resolveWithMetadata (env : ResolveEnv) (host : Bytes) (networkEpoch : ℕ) (timeoutMs : ℤ)
    (st : State) : Resolution × State :=
  let resolution (result : ResolveResult) (via : Via) : Resolution :=
    { host, networkEpoch, result, via, readAtMs := env.cacheNowMs, writtenAtMs := env.writeNowMs }
  let elapsedMs := env.finishedMs - env.startedMs
  if host.isEmpty then (resolution { error := .errInvalidArgument } .nothing, st)
  else if (isNumericIp inet host).isSome then
    match isSafeIp inet host st.config.allowPrivateAddresses with
    | none => (resolution { error := .errDns, elapsedMs } .literal, st)
    | some ipv6 =>
      (resolution
        { addresses := [{ ip := host, ipv6, score := 10000, source := .literal }], elapsedMs }
        .literal, st)
  else resolveName inet env host networkEpoch timeoutMs st

/-! ### The other operations -/

/-- `invalidate`. -/
def invalidate (host : Bytes) (st : State) : State :=
  if host.isEmpty then { st with cache := ∅ }
  else { st with cache := UnorderedMap.eraseIf ((host ++ [10]).isPrefixOf ·) st.cache }

/-- The first entry of least `updatedAtMs`, in an iteration order given by `order`. -/
def oldestHealth (order : ℕ) (health : AList fun _ : Bytes => Health) : Option Bytes :=
  ((health.entries.rotate order).foldl (fun (oldest : Option (Σ _ : Bytes, Health)) e =>
    match oldest with
    | none => some e
    | some o => if e.2.updatedAtMs < o.2.updatedAtMs then some e else some o) none).map (·.1)

/-- `report_connection_result`. -/
def reportConnectionResult (nowMs : ℤ) (order : ℕ) (host ip : Bytes) (networkEpoch : ℕ)
    (success : Bool) (rttMs : ℤ) (st : State) : State :=
  if host.isEmpty || ip.isEmpty then st
  else
    let key := healthKey host ip networkEpoch
    let table := if st.config.maxHealthEntries ≤ st.health.entries.length ∧ key ∉ st.health then
      match oldestHealth order st.health with
      | some oldest => st.health.erase oldest
      | none => st.health
      else st.health
    let health := { (table.lookup key).getD {} with updatedAtMs := nowMs }
    let health := if success then
      { health with
        successes := health.successes + 1
        failures := 0
        rttMs := if 0 ≤ rttMs then
          if health.rttMs < 0 then rttMs else (health.rttMs * 7 + rttMs * 3).tdiv 10
          else health.rttMs }
      else { health with failures := health.failures + 1 }
    { st with health := table.insert key health }

/-- `on_quality_change`. -/
def onQualityChange (snapshot : QualitySnapshot) (st : State) : State :=
  { st with quality := snapshot }

/-- `on_network_change`. -/
def onNetworkChange (networkEpoch : ℕ) (st : State) : State :=
  { st with lastNetworkEpoch := networkEpoch, health := ∅ }

/-- `set_httpdns_lookup`. -/
def setHttpdnsLookup (httpdnsLookup : Bool) (st : State) : State :=
  { st with httpdnsLookup, cache := ∅ }

/-- The addresses `set_backup_ips` keeps. -/
def safeBackupIps (allowPrivateAddresses : Bool) (addresses : List IpResult) : List IpResult :=
  addresses.filterMap fun item =>
    if (isNumericIp inet item.ip).isSome then
      (isSafeIp inet item.ip allowPrivateAddresses).map fun ipv6 =>
        { item with ipv6, source := .backup }
    else none

/-- `set_backup_ips`. -/
def setBackupIps (host : Bytes) (addresses : List IpResult) (st : State) : State :=
  let safeAddresses := safeBackupIps inet st.config.allowPrivateAddresses addresses
  { st with
    backupIps := if safeAddresses.isEmpty then st.backupIps.erase host
      else st.backupIps.insert host safeAddresses
    cache := UnorderedMap.eraseIf ((host ++ [10]).isPrefixOf ·) st.cache }

end

end AsterNet.Dns
