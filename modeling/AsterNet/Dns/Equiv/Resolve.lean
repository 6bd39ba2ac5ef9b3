import AsterNet.Dns.Equiv.Filter
import AsterNet.Dns.Session

/-!
# What one call of the resolver does

`Resolved` is the specification of `resolve_with_metadata` for a host that is not a literal: where
its addresses come from and what it leaves in the cache.  `resolveWithMetadata_cases` splits a call
into that case and the literals and errors, which touch nothing.  `config_of_reachable` is the first
invariant over runs: the configuration never changes.
-/

namespace AsterNet.Dns

/-- The source is one of the two live lookups. -/
def ResolutionSource.IsLive (s : ResolutionSource) : Prop := s = .httpDns ∨ s = .localDns

/-- The tier is one of the two live lookups. -/
def Via.IsLive (v : Via) : Prop := v = .httpDns ∨ v = .localDns

/-- The tier is the cache. -/
def Via.IsCache (v : Via) : Prop := v = .fresh ∨ v = .stale

instance : DecidablePred ResolutionSource.IsLive :=
  fun s => inferInstanceAs (Decidable (s = .httpDns ∨ s = .localDns))

instance : DecidablePred Via.IsLive :=
  fun v => inferInstanceAs (Decidable (v = .httpDns ∨ v = .localDns))

instance : DecidablePred Via.IsCache :=
  fun v => inferInstanceAs (Decidable (v = .fresh ∨ v = .stale))

/-! ### Cache keys -/

/-- A cache key determines its host and epoch. -/
theorem cacheKey_inj {host host' : Bytes} {networkEpoch networkEpoch' : ℕ} :
    cacheKey host networkEpoch = cacheKey host' networkEpoch' ↔
      host = host' ∧ networkEpoch = networkEpoch' := by
  constructor
  · intro h
    obtain ⟨hhost, hepoch⟩ :=
      ByteString.append_cons_inj_of_notMem_right (ByteString.notMem_decimal rfl _)
        (ByteString.notMem_decimal rfl _) h
    exact ⟨hhost, ByteString.decimal_inj.mp hepoch⟩
  · rintro ⟨rfl, rfl⟩
    rfl

/-! ### What one resolve does -/

section Resolve

variable {inet : Inet} {env : ResolveEnv} {st st' : State} {timeoutMs : ℤ}

theorem source_of_mem_filterFinal {allow : Bool} {addresses : List IpResult} {a : IpResult}
    (h : a ∈ filterFinal inet allow addresses) :
    ∃ b ∈ addresses, b.ip = a.ip ∧ (a.source.IsLive → b.source = a.source) := by
  obtain ⟨b, hb, hkeep⟩ := List.mem_filterMap.mp h
  obtain ⟨ipv6, -, rfl⟩ := Option.map_eq_some_iff.mp hkeep
  refine ⟨b, hb, rfl, fun hlive => ?_⟩
  by_cases hb : b.source ≠ .httpDns ∧ b.source ≠ .localDns
  · simp [hb, ResolutionSource.IsLive] at hlive
  · simp [hb]

/-- The entries after a write back: the new one, or an old one of another key. -/
theorem lookup_storeEntry {nowMs : ℤ} {evict : ℕ} {key key' : Bytes} {addresses : List IpResult}
    {e : CacheEntry} (h : (storeEntry nowMs evict key addresses st).cache.lookup key' = some e) :
    (key' = key ∧ addresses ≠ [] ∧ e = ⟨addresses, nowMs + st.config.ttlMs,
        nowMs + st.config.ttlMs + st.config.staleTtlMs⟩) ∨
      (¬ (key' = key ∧ addresses ≠ []) ∧ st.cache.lookup key' = some e) := by
  unfold storeEntry at h
  split_ifs at h with hempty hfull
  · exact .inr ⟨fun hne => hne.2 (List.isEmpty_iff.mp hempty), h⟩
  all_goals
    rcases UnorderedMap.lookup_insert_cases h with ⟨rfl, rfl⟩ | ⟨hne, hold⟩
    · exact .inl ⟨rfl, fun hnil => hempty (List.isEmpty_iff.mpr hnil), rfl⟩
    · refine .inr ⟨fun heq => hne heq.1, ?_⟩
      first | exact UnorderedMap.lookup_of_lookup_eraseFirst hold | exact hold

/-- A call for a host that is not a literal: its addresses come from the tier it names, and only the
entry of its key changes. -/
structure Resolved (inet : Inet) (env : ResolveEnv) (st : State) (r : Resolution) (st' : State) :
    Prop where
  supply : ∃ s, Supplied inet env (readCache env.cacheNowMs r.host r.networkEpoch st) st s ∧
    r.via = s.via ∧ (s.addresses = [] → s.via = .backup ∨ s.via = .stale) ∧
    ∀ a ∈ r.result.addresses, ∃ b ∈ s.addresses,
      b.ip = a.ip ∧ (a.source.IsLive → b.source = a.source)
  cacheHit : r.result.cacheHit =
    ((readCache env.cacheNowMs r.host r.networkEpoch st).cacheHit || r.via == .stale)
  readAt : r.readAtMs = env.cacheNowMs
  config : st'.config = st.config
  backupIps : st'.backupIps = st.backupIps
  cache : ∀ key e, st'.cache.lookup key = some e →
    (key = cacheKey r.host r.networkEpoch ∧ r.result.addresses ≠ [] ∧
      e = ⟨r.result.addresses, r.writtenAtMs + st.config.ttlMs,
        r.writtenAtMs + st.config.ttlMs + st.config.staleTtlMs⟩) ∨
      (¬ (key = cacheKey r.host r.networkEpoch ∧ r.result.addresses ≠ []) ∧
        st.cache.lookup key = some e)

theorem storeEntry_frame (nowMs : ℤ) (evict : ℕ) (key : Bytes) (addresses : List IpResult)
    (st : State) : (storeEntry nowMs evict key addresses st).config = st.config ∧
      (storeEntry nowMs evict key addresses st).backupIps = st.backupIps := by
  unfold storeEntry
  split_ifs <;> exact ⟨rfl, rfl⟩

theorem resolved_resolveName (inet : Inet) (env : ResolveEnv) (host : Bytes) (networkEpoch : ℕ)
    (timeoutMs : ℤ) (st : State) :
    Resolved inet env st (resolveName inet env host networkEpoch timeoutMs st).1
      (resolveName inet env host networkEpoch timeoutMs st).2 := by
  have hsup := supplied_gather inet env timeoutMs (readCache env.cacheNowMs host networkEpoch st) st
  obtain ⟨n, hn⟩ := hsup.state
  have hconfig : (gather inet env timeoutMs (readCache env.cacheNowMs host networkEpoch st)
      st).st.config = st.config := by rw [hn]
  have hcache : (gather inet env timeoutMs (readCache env.cacheNowMs host networkEpoch st)
      st).st.cache = st.cache := by rw [hn]
  refine ⟨⟨_, hsup, rfl, via_of_fallBack_eq_nil, ?_⟩, rfl, rfl, ?_, ?_, ?_⟩
  · intro a ha
    obtain ⟨b, hb, hip, hsrc⟩ := mem_rankAddresses ha
    obtain ⟨c, hc, hip', hsrc'⟩ := source_of_mem_filterFinal hb
    exact ⟨c, hc, hip'.trans hip, fun hlive => (hsrc' (hsrc ▸ hlive)).trans hsrc⟩
  · exact (storeEntry_frame ..).1.trans hconfig
  · exact (storeEntry_frame ..).2.trans (by rw [hn])
  · intro key e he
    rw [← hconfig, ← hcache]
    exact lookup_storeEntry he

/-- The two kinds of calls: literals and errors touch nothing, the others are `Resolved`. -/
theorem resolveWithMetadata_cases (inet : Inet) (env : ResolveEnv) (host : Bytes)
    (networkEpoch : ℕ) (timeoutMs : ℤ) (st : State) {r : Resolution} {st' : State}
    (h : resolveWithMetadata inet env host networkEpoch timeoutMs st = (r, st')) :
    r.host = host ∧ r.networkEpoch = networkEpoch ∧
      ((st' = st ∧ r.result.cacheHit = false ∧ (r.via = .literal ∨ r.result.addresses = [])) ∨
        Resolved inet env st r st') := by
  unfold resolveWithMetadata at h
  dsimp only at h
  split_ifs at h with hempty hnum
  · obtain ⟨rfl, rfl⟩ := Prod.mk.inj h
    exact ⟨rfl, rfl, .inl ⟨rfl, rfl, .inr rfl⟩⟩
  -- a numeric host is its own address, or refused
  · cases hsafe : isSafeIp inet host st.config.allowPrivateAddresses with
    | none =>
      rw [hsafe] at h
      obtain ⟨rfl, rfl⟩ := Prod.mk.inj h
      exact ⟨rfl, rfl, .inl ⟨rfl, rfl, .inr rfl⟩⟩
    | some ipv6 =>
      rw [hsafe] at h
      obtain ⟨rfl, rfl⟩ := Prod.mk.inj h
      exact ⟨rfl, rfl, .inl ⟨rfl, rfl, .inl rfl⟩⟩
  · -- a name: every tier may be asked
    have := resolved_resolveName inet env host networkEpoch timeoutMs st
    have hhost : (resolveName inet env host networkEpoch timeoutMs st).1.host = host ∧
        (resolveName inet env host networkEpoch timeoutMs st).1.networkEpoch = networkEpoch :=
      ⟨rfl, rfl⟩
    rw [h] at this hhost
    exact ⟨hhost.1, hhost.2, .inr this⟩

end Resolve

/-! ### What the cache lookup finds -/

section Read

variable {nowMs : ℤ} {host : Bytes} {networkEpoch : ℕ} {st : State}

theorem readCache_backupIps : (readCache nowMs host networkEpoch st).backupIps =
    (st.backupIps.lookup host).getD [] := by
  unfold readCache
  cases st.cache.lookup (cacheKey host networkEpoch) <;> rfl

theorem readCache_staleEntry (nowMs : ℤ) (host : Bytes) (networkEpoch : ℕ) (st : State) :
    ips (readCache nowMs host networkEpoch st).staleEntry =
      ((st.cache.lookup (cacheKey host networkEpoch)).map fun entry => ips entry.addresses).getD [] := by
  unfold readCache
  cases st.cache.lookup (cacheKey host networkEpoch) <;> simp [ips]

theorem readCache_addresses (nowMs : ℤ) (host : Bytes) (networkEpoch : ℕ) (st : State) :
    (readCache nowMs host networkEpoch st).addresses = [] ∨
      (readCache nowMs host networkEpoch st).addresses =
        (readCache nowMs host networkEpoch st).staleEntry := by
  unfold readCache
  cases st.cache.lookup (cacheKey host networkEpoch) with
  | none => exact .inl rfl
  | some cached =>
    dsimp only
    split_ifs
    · exact .inr rfl
    · exact .inl rfl

theorem exists_entry_of_cacheHit (h : (readCache nowMs host networkEpoch st).cacheHit = true) :
    ∃ e, st.cache.lookup (cacheKey host networkEpoch) = some e ∧ nowMs ≤ e.expiresAtMs ∧
      (readCache nowMs host networkEpoch st).addresses = e.addresses := by
  unfold readCache at h ⊢
  cases hlook : st.cache.lookup (cacheKey host networkEpoch) with
  | none => simp [hlook] at h
  | some e =>
    have hnow : nowMs ≤ e.expiresAtMs := by simpa [hlook] using h
    exact ⟨e, rfl, hnow, by simp [hnow]⟩

theorem cacheHit_of_mem_addresses {a : IpResult}
    (h : a ∈ (readCache nowMs host networkEpoch st).addresses) :
    (readCache nowMs host networkEpoch st).cacheHit = true := by
  unfold readCache at h ⊢
  cases hlook : st.cache.lookup (cacheKey host networkEpoch) with
  | none => simp [hlook] at h
  | some e =>
    rw [hlook] at h
    dsimp only at h ⊢
    split_ifs at h with hnow
    · simpa using hnow
    · simp at h

theorem exists_entry_of_hasStaleEntry
    (h : (readCache nowMs host networkEpoch st).hasStaleEntry = true) :
    ∃ e, st.cache.lookup (cacheKey host networkEpoch) = some e ∧ nowMs ≤ e.staleUntilMs ∧
      (readCache nowMs host networkEpoch st).staleEntry = e.addresses := by
  unfold readCache at h ⊢
  cases hlook : st.cache.lookup (cacheKey host networkEpoch) with
  | none => simp [hlook] at h
  | some e => exact ⟨e, rfl, by simpa [hlook] using h, rfl⟩

end Read

/-- A report changes the health table, and adds no key but its own. -/
theorem reportConnectionResult_frame (nowMs : ℤ) (order : ℕ) (host ip : Bytes) (networkEpoch : ℕ)
    (success : Bool) (rttMs : ℤ) (st : State) :
    ∃ health, (∀ key ∈ health, key = healthKey host ip networkEpoch ∨ key ∈ st.health) ∧
      reportConnectionResult nowMs order host ip networkEpoch success rttMs st = { st with health } := by
  unfold reportConnectionResult
  dsimp only
  by_cases hempty : (host.isEmpty || ip.isEmpty) = true
  · rw [if_pos hempty]
    exact ⟨st.health, fun key hkey => .inr hkey, rfl⟩
  · rw [if_neg hempty]
    refine ⟨_, fun key hkey => ?_, rfl⟩
    rcases (AList.mem_insert _).mp hkey with rfl | hkey
    · exact .inl rfl
    refine .inr ?_
    -- the table may have lost its oldest entry
    split_ifs at hkey
    · split at hkey
      · exact (AList.mem_erase.mp hkey).2
      · exact hkey
    · exact hkey

/-! ### The configuration over a run -/

theorem config_apply (inet : Inet) (s : Session) (op : Op) :
    (s.apply inet op).st.config = s.st.config := by
  unfold Session.apply Session.next
  cases op with
  | resolve env host networkEpoch timeoutMs =>
    obtain ⟨-, -, ⟨hst, -⟩ | hres⟩ :=
      resolveWithMetadata_cases inet env host networkEpoch timeoutMs s.st
        (Prod.mk.eta (p := resolveWithMetadata inet env host networkEpoch timeoutMs s.st)).symm
    · exact congrArg State.config hst
    · exact hres.config
  | invalidate host =>
    simp only [invalidate]
    split_ifs <;> rfl
  | report nowMs order host ip networkEpoch success rttMs =>
    simp only [reportConnectionResult]
    split_ifs <;> rfl
  | _ => rfl

theorem config_of_reachable {inet : Inet} {config : Config} {s : Session}
    (h : Session.Reachable inet config s) : s.st.config = config := by
  obtain ⟨httpdnsLookup, clockMs, ops, hrun⟩ := h
  refine hrun.invariant (I := fun s => s.st.config = config) ?_ rfl
  rintro s op _ hs ⟨-, rfl⟩
  exact (config_apply inet s op).trans hs

end AsterNet.Dns
