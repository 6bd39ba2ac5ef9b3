import AsterNet.Client.Equiv.Deadline
import AsterNet.Client.Equiv.Trace
import AsterNet.Dns.Equiv.Offers
import AsterNet.Dns.PlainInet

/-!
# No request leaves for a special address

`filtered_of_reachable` puts the address filter together over every history of a resolver without
private addresses: the addresses of its results, its backup addresses, and the address any engine is
told to connect to by a client that resolves with it.
-/

namespace AsterNet

open Effect

/-- What is known of every resolved address is known of every address an engine connects to. -/
theorem connectHost_of_accepts {T : ℤ} {R : Dns.ResolveResult → Prop} {P : Bytes → Prop}
    (hR : ∀ resolution, R resolution → ∀ address ∈ resolution.addresses, P address.ip)
    {k : Ghost} (hk : ∀ ip ∈ k.addresses, P ip) {events : List Event}
    (h : (traceMonitor T R).Accepts k events) {type : EngineType} {req : Request}
    (hmem : .engineRequest type req ∈ events) : P req.connectHost := by
  induction events generalizing k with
  | nil => cases hmem
  | cons e events ih =>
    obtain ⟨hok, hrest⟩ := h
    rcases List.mem_cons.mp hmem with rfl | hmem
    · obtain ⟨-, -, -, hhost⟩ := hok
      exact hk _ hhost
    · refine ih ?_ hrest hmem
      show ∀ ip ∈ (k.next e).addresses, P ip
      cases e with
      | resolved resolution =>
        intro ip hip
        obtain ⟨address, haddress, rfl⟩ := List.mem_map.mp hip
        exact hR resolution hok address haddress
      | clock site t => cases site <;> exact hk
      | _ => exact hk

namespace Dns

variable (inet : Inet)

/-- The text of an address is allowed exactly when the address is not special. -/
theorem allowed_ntop4_iff (a : Cidr.Addr 4) : Allowed inet (inet.ntop4 a) ↔ ¬ IsSpecial4 a := by
  have htext := ByteString.cStr_eq_self (inet.nul_notMem_ntop4 a)
  simp [Allowed, IsNumeric, IsSpecial, htext, inet.pton4_ntop4]

theorem allowed_ntop6_iff (a : Cidr.Addr 16) : Allowed inet (inet.ntop6 a) ↔ ¬ IsSpecial6 a := by
  have htext := ByteString.cStr_eq_self (inet.nul_notMem_ntop6 a)
  simp [Allowed, IsNumeric, IsSpecial, htext, inet.pton4_ntop6, inet.pton6_ntop6]

/-- The client's outside resolves with a resolver of this configuration, in any reachable session. -/
def ResolvesWith {σ : Type} (config : Config) (env : ClientEnv σ) : Prop :=
  ∀ host networkEpoch timeoutMs o, ∃ (renv : ResolveEnv) (s : Session),
    Session.Reachable inet config s ∧
      (env.resolveWithMetadata host networkEpoch timeoutMs o).1 =
        (resolveWithMetadata inet renv host networkEpoch timeoutMs s.st).1.result

/-- The address filter at work in a session. -/
structure Filtered (config : Config) (s : Session) : Prop where
  /-- A result holds exactly the allowed addresses of the first tier that has any: the host itself where it
  is numeric, else the cache, HttpDNS, LocalDNS, the backup addresses and the stale entry, in this order. -/
  resolved : ∀ env host networkEpoch timeoutMs ip,
    let r := (resolveWithMetadata inet env host networkEpoch timeoutMs s.st).1
    ip ∈ ips r.result.addresses ↔
      ∃ via, Serves inet (offers inet env host networkEpoch timeoutMs s.st) via ip
  /-- The tier that serves a call is the one its result names. -/
  served : ∀ env host networkEpoch timeoutMs via ip,
    Serves inet (offers inet env host networkEpoch timeoutMs s.st) via ip →
      via = (resolveWithMetadata inet env host networkEpoch timeoutMs s.st).1.via
  /-- What a name resolves to is its cache entry from then on. -/
  kept : ∀ env (host : Bytes) networkEpoch timeoutMs, host.isEmpty = false →
    isNumericIp inet host = none →
    let resolved := resolveWithMetadata inet env host networkEpoch timeoutMs s.st
    resolved.1.result.addresses ≠ [] →
      (resolved.2.cache.lookup (cacheKey host networkEpoch)).map (·.addresses) =
        some resolved.1.result.addresses
  /-- The backup addresses of a host are the allowed ones among those that were configured. -/
  backup : ∀ host addresses ip,
    ip ∈ ips (((setBackupIps inet host addresses s.st).backupIps.lookup host).getD []) ↔
      ip ∈ ips addresses ∧ Allowed inet ip
  /-- An address the system resolver found is allowed exactly when it is not special. -/
  text4 : ∀ a, Allowed inet (inet.ntop4 a) ↔ ¬ IsSpecial4 a
  text6 : ∀ a, Allowed inet (inet.ntop6 a) ↔ ¬ IsSpecial6 a
  /-- Every address an engine is told to connect to is allowed. -/
  connectHost : ∀ {σ : Type} (env : ClientEnv σ), ResolvesWith inet config env →
    ∀ clientConfig req policy resp w type attempt,
      .engineRequest type attempt ∈
        (Client.requestWithPolicy env clientConfig req policy resp w).events →
      Allowed inet attempt.connectHost

theorem mem_ips_setBackupIps {st : State} (hconfig : st.config.allowPrivateAddresses = false)
    (host : Bytes) (addresses : List IpResult) (ip : Bytes) :
    ip ∈ ips (((setBackupIps inet host addresses st).backupIps.lookup host).getD []) ↔
      ip ∈ ips addresses ∧ Allowed inet ip := by
  rw [← mem_ips_safeBackupIps]
  unfold setBackupIps
  rw [hconfig]
  dsimp only
  split_ifs with hempty
  · rw [List.isEmpty_iff.mp hempty, AList.lookup_erase]
    rfl
  · rw [AList.lookup_insert]
    rfl

/-- **The address filter.**  In every session of a resolver without private addresses, exactly the
numeric addresses that are not special get through. -/
theorem filtered_of_reachable {config : Config} (hprivate : config.allowPrivateAddresses = false)
    {s : Session} (hs : Session.Reachable inet config s) : Filtered inet config s where
  resolved env host networkEpoch timeoutMs ip := by
    obtain ⟨hsound, hcomplete⟩ :=
      mem_ips_of_reachable hprivate hs env host networkEpoch timeoutMs ip
    exact ⟨fun hip => ⟨_, hsound hip⟩, fun ⟨via, hserves⟩ => hcomplete via hserves⟩
  served env host networkEpoch timeoutMs via ip hserves := by
    obtain ⟨hsound, hcomplete⟩ :=
      mem_ips_of_reachable hprivate hs env host networkEpoch timeoutMs ip
    exact hserves.via_eq (hsound (hcomplete via hserves))
  kept env host networkEpoch timeoutMs hempty hname hne :=
    lookup_resolveWithMetadata hempty hname hne
  backup := mem_ips_setBackupIps inet (by rw [config_of_reachable hs, hprivate])
  text4 := allowed_ntop4_iff inet
  text6 := allowed_ntop6_iff inet
  connectHost env hresolves clientConfig req policy resp w type attempt hmem := by
    -- whatever the resolver says is a resolution in a reachable session
    have hallowed : ∀ host networkEpoch timeoutMs o,
        ∀ address ∈ (env.resolveWithMetadata host networkEpoch timeoutMs o).1.addresses,
          Allowed inet address.ip := by
      intro host networkEpoch timeoutMs o address haddress
      obtain ⟨renv, s, hs, heq⟩ := hresolves host networkEpoch timeoutMs o
      rw [heq] at haddress
      have hmem := List.mem_map_of_mem (f := (·.ip)) haddress
      obtain ⟨hsound, -⟩ :=
        mem_ips_of_reachable hprivate hs renv host networkEpoch timeoutMs address.ip
      exact (hsound hmem).allowed
    exact connectHost_of_accepts (P := Allowed inet) (fun _ h => h) (by simp)
      (Client.accepts_requestWithPolicy env clientConfig hallowed req policy resp w {}) hmem

/-! ### Backup addresses, a public and a private one -/

/-- A call at time `t` that no lookup answers. -/
def unanswered (t : ℤ) : ResolveEnv where
  startedMs := t
  cacheNowMs := t
  httpdns := { nowMs := t, outcome := .threadFailed }
  localdns := { nowMs := t, outcome := .threadFailed }
  writeNowMs := t
  finishedMs := t

/-- `set_backup_ips` with a private address among the two, and a call for the host. -/
def backedUp : Session :=
  ((Session.init {} false 0).apply Inet.plain (.setBackupIps (ByteString.ascii "h")
    [{ ip := ByteString.ascii "10.0.0.1" }, { ip := ByteString.ascii "93.184.216.34" }])).apply
    Inet.plain (.resolve (unanswered 1) (ByteString.ascii "h") 0 0)

theorem reachable_backedUp : Session.Reachable Inet.plain {} backedUp :=
  ⟨false, 0, _, (Transition.Run.nil.snoc ⟨by simp [Op.readings], rfl⟩).snoc
    ⟨by simp [Op.readings, unanswered, Session.apply, Session.init], rfl⟩⟩

/-- A client that resolves with this session, on a thread of its own. -/
def resolvingEnv : ClientEnv ℕ :=
  { Client.slowDns 0 with
    resolveWithMetadata := fun host networkEpoch timeoutMs t =>
      ((resolveWithMetadata Inet.plain (unanswered t) host networkEpoch timeoutMs backedUp.st).1.result,
        t) }

/-- The addresses engines are told to connect to. -/
def connectHosts (events : List Event) : List Bytes :=
  events.filterMap fun
    | .engineRequest _ attempt => some attempt.connectHost
    | _ => none

/-- The call is served the public address by the backup tier, and a client connects to that. -/
theorem filtered_backedUp :
    Filtered Inet.plain {} backedUp ∧ ResolvesWith Inet.plain {} resolvingEnv ∧
      backedUp.history.map (fun r => (r.via, ips r.result.addresses)) =
        [(.backup, [ByteString.ascii "93.184.216.34"])] ∧
      connectHosts (Client.requestWithPolicy resolvingEnv {} { host := ByteString.ascii "h" } .http11Only
        {} ⟨1, ∅⟩).events = [ByteString.ascii "93.184.216.34"] :=
  ⟨filtered_of_reachable Inet.plain rfl reachable_backedUp,
    fun _ _ _ t => ⟨unanswered t, backedUp, reachable_backedUp, rfl⟩, by decide +kernel, by decide +kernel⟩

end Dns

end AsterNet
