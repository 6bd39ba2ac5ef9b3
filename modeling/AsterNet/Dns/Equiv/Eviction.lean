import AsterNet.Dns.Equiv.Resolve
import AsterNet.Dns.PlainInet
import AsterNet.Lib.Recency
import Mathlib.Data.Set.Card

/-!
# What the cache evicts

At capacity, the write back erases the entry an iteration over the cache meets first, whatever its key was
last resolved.  `state_resolveName` says what one resolve leaves, `Bounded` what every run of resolves
keeps, and `exists_filled` fills the cache with given names, the newest in front.

`lru_iff`: the entry evicted is always the least recently resolved one exactly where there is nothing to
choose: one entry, no lookups, or no more names than entries.
-/

namespace AsterNet.Dns

open Recency UnorderedMap

/-! ### What one resolve does to the cache -/

section

variable (inet : Inet)

/-- The host is neither empty nor a literal. -/
def IsName (host : Bytes) : Prop := host.isEmpty = false ∧ (isNumericIp inet host).isNone = true

instance (host : Bytes) : Decidable (IsName inet host) := inferInstanceAs (Decidable (_ ∧ _))

/-- The cache with room for an entry of this key. -/
def makeRoom (evict : ℕ) (key : Bytes) (st : State) : AList fun _ : Bytes => CacheEntry :=
  if st.config.maxCacheEntries ≤ st.cache.entries.length ∧ key ∉ st.cache then
    eraseFirst evict st.cache else st.cache

variable {inet} {env : ResolveEnv} {host : Bytes} {networkEpoch : ℕ} {timeoutMs : ℤ} {st : State}

theorem resolveWithMetadata_of_isName (h : IsName inet host) :
    resolveWithMetadata inet env host networkEpoch timeoutMs st =
      resolveName inet env host networkEpoch timeoutMs st := by
  have hnum : (isNumericIp inet host).isSome = false := by
    rw [Option.isNone_iff_eq_none.mp h.2]
    rfl
  unfold resolveWithMetadata
  dsimp only
  rw [if_neg (Bool.eq_false_iff.mp h.1), if_neg (Bool.eq_false_iff.mp hnum)]

theorem state_of_not_isName (h : ¬ IsName inet host) :
    (resolveWithMetadata inet env host networkEpoch timeoutMs st).2 = st := by
  unfold resolveWithMetadata
  dsimp only
  split_ifs with hempty hnum
  · rfl
  · split <;> rfl
  · refine absurd ⟨Bool.eq_false_iff.mpr hempty, ?_⟩ h
    rw [Option.isNone_iff_eq_none, ← Option.not_isSome_iff_eq_none]
    exact hnum

/-- A resolve of a name counts its lookup threads, and writes its addresses back. -/
theorem state_resolveName (inet : Inet) (env : ResolveEnv) (host : Bytes) (networkEpoch : ℕ)
    (timeoutMs : ℤ) (st : State) : ∃ n, (resolveName inet env host networkEpoch timeoutMs st).2 =
    storeEntry env.writeNowMs env.evict (cacheKey host networkEpoch)
      (resolveName inet env host networkEpoch timeoutMs st).1.result.addresses
      { st with activeLookups := n } := by
  obtain ⟨n, hn⟩ :=
    (supplied_gather inet env timeoutMs (readCache env.cacheNowMs host networkEpoch st) st).state
  refine ⟨n, ?_⟩
  unfold resolveName writeBack
  dsimp only
  rw [hn]

theorem storeEntry_of_ne_nil {addresses : List IpResult} (h : addresses ≠ []) (nowMs : ℤ) (evict : ℕ)
    (key : Bytes) (st : State) : ∃ entry, storeEntry nowMs evict key addresses st =
      { st with cache := (makeRoom evict key st).insert key entry } := by
  unfold storeEntry
  rw [if_neg (by simpa using h)]
  exact ⟨_, rfl⟩

/-- What a resolve leaves in the cache. -/
theorem cache_resolveWithMetadata (inet : Inet) (env : ResolveEnv) (host : Bytes) (networkEpoch : ℕ)
    (timeoutMs : ℤ) (st : State) :
    (resolveWithMetadata inet env host networkEpoch timeoutMs st).2.cache = st.cache ∨
      IsName inet host ∧
      (resolveWithMetadata inet env host networkEpoch timeoutMs st).1.result.addresses ≠ [] ∧
      ∃ entry, (resolveWithMetadata inet env host networkEpoch timeoutMs st).2.cache =
        (makeRoom env.evict (cacheKey host networkEpoch) st).insert (cacheKey host networkEpoch)
          entry := by
  by_cases hname : IsName inet host
  · rw [resolveWithMetadata_of_isName hname]
    obtain ⟨n, hn⟩ := state_resolveName inet env host networkEpoch timeoutMs st
    rw [hn]
    by_cases hnil : (resolveName inet env host networkEpoch timeoutMs st).1.result.addresses = []
    · rw [hnil]
      exact .inl rfl
    · obtain ⟨entry, hentry⟩ := storeEntry_of_ne_nil hnil env.writeNowMs env.evict
        (cacheKey host networkEpoch) { st with activeLookups := n }
      rw [hentry]
      exact .inr ⟨hname, hnil, entry, rfl⟩
  · rw [state_of_not_isName hname]
    exact .inl rfl

theorem mem_of_mem_makeRoom {evict : ℕ} {key key' : Bytes} (h : key' ∈ makeRoom evict key st) :
    key' ∈ st.cache := by
  unfold makeRoom eraseFirst at h
  split_ifs at h
  · split at h
    · exact (AList.mem_erase.mp h).2
    · exact h
  · exact h

/-- **The cache stays within its capacity.** -/
theorem length_insert_makeRoom_le (hpos : 1 ≤ st.config.maxCacheEntries)
    (hle : st.cache.entries.length ≤ st.config.maxCacheEntries) (evict : ℕ) (key : Bytes)
    (entry : CacheEntry) :
    ((makeRoom evict key st).insert key entry).entries.length ≤ st.config.maxCacheEntries := by
  unfold makeRoom
  by_cases hnew : key ∈ st.cache
  · rw [if_neg (by simp [hnew]), length_insert_of_mem hnew]
    exact hle
  · by_cases hfull : st.config.maxCacheEntries ≤ st.cache.entries.length
    · rw [if_pos ⟨hfull, hnew⟩]
      have herase : (eraseFirst evict st.cache).entries.length + 1 = st.cache.entries.length :=
        length_eraseFirst (by omega)
      have hinsert := length_insert_le (eraseFirst evict st.cache) key entry
      omega
    · rw [if_neg (by simp [hfull]), length_insert_of_notMem hnew]
      omega

end

/-! ### Runs of resolves -/

/-- The keys resolved so far, newest first. -/
def Session.resolved (s : Session) : List Bytes :=
  s.history.map fun r => cacheKey r.host r.networkEpoch

/-- A resolve of one of these hosts and epochs. -/
def ResolveStep (inet : Inet) (K : Set (Bytes × ℕ)) (s : Session) (op : Op) (s' : Session) : Prop :=
  Session.Step inet s op s' ∧ ∃ env host networkEpoch timeoutMs,
    op = .resolve env host networkEpoch timeoutMs ∧ (host, networkEpoch) ∈ K

/-- The step evicts the least recently resolved entry. -/
structure EvictsOldest (s s' : Session) : Prop where
  oldest : ∀ key ∈ s.st.cache, key ∉ s'.st.cache →
    ∀ key' ∈ s.st.cache, key' ≠ key → Older s.resolved key key'
  /-- What is among the `maxCacheEntries - 1` most recently resolved stays. -/
  recent : ∀ key ∈ s.st.cache, (since s.resolved key).card + 1 < s.st.config.maxCacheEntries →
    key ∈ s'.st.cache

/-- Every resolve of every run evicts the least recently resolved entry. -/
def LruFor (inet : Inet) (config : Config) (K : Set (Bytes × ℕ)) : Prop :=
  ∀ httpdnsLookup clockMs ops s op s',
    Transition.Run (ResolveStep inet K) (Session.init config httpdnsLookup clockMs) ops s →
    ResolveStep inet K s op s' → EvictsOldest s s'

/-- The hosts and epochs that can have entries. -/
def names (inet : Inet) (K : Set (Bytes × ℕ)) : Set (Bytes × ℕ) := {n ∈ K | IsName inet n.1}

/-! ### Where there is nothing to choose -/

section

variable {inet : Inet} {env : ResolveEnv} {host : Bytes} {networkEpoch : ℕ} {timeoutMs : ℤ} {st : State}

/-- Nothing is found, and no lookup may be active. -/
def Supply.Idle (s : Supply) : Prop := s.addresses = [] ∧ s.st.config.maxActiveLookups = 0

/-- Without a slot nothing is answered. -/
theorem runBoundedLookup_of_maxActiveLookups {α : Type} (lookup : Lookup α)
    (h : st.config.maxActiveLookups = 0) : (runBoundedLookup lookup st).1 = none ∧
      (runBoundedLookup lookup st).2.2.config = st.config := by
  unfold runBoundedLookup
  dsimp only
  rw [if_pos (by omega)]
  exact ⟨rfl, rfl⟩

theorem idle_askHttpDns {lookup : Lookup (List IpResult)} {httpdnsLookup allow : Bool} {deadlineMs : ℤ}
    {s : Supply} (h : s.Idle) : (askHttpDns inet lookup httpdnsLookup deadlineMs allow s).Idle := by
  obtain ⟨hnil, hzero⟩ := h
  obtain ⟨hnone, hconfig⟩ := runBoundedLookup_of_maxActiveLookups lookup hzero
  unfold askHttpDns
  split_ifs
  · refine ⟨?_, (congrArg Config.maxActiveLookups hconfig).trans hzero⟩
    dsimp only
    rw [hnone, hnil]
    rfl
  · exact ⟨hnil, hzero⟩

theorem idle_askLocalDns {lookup : Lookup (List AddrInfo)} {allow : Bool} {deadlineMs : ℤ} {s : Supply}
    (h : s.Idle) : (askLocalDns inet lookup deadlineMs allow s).Idle := by
  obtain ⟨hnil, hzero⟩ := h
  obtain ⟨hnone, hconfig⟩ := runBoundedLookup_of_maxActiveLookups lookup hzero
  unfold askLocalDns
  split_ifs
  · refine ⟨?_, (congrArg Config.maxActiveLookups hconfig).trans hzero⟩
    dsimp only
    rw [hnone]
    exact hnil
  · exact ⟨hnil, hzero⟩

theorem addresses_fallBack_of_idle {read : CacheRead} {s : Supply} (h : s.Idle)
    (hbackup : read.backupIps = []) (hstale : read.hasStaleEntry = false) :
    (fallBack read s).addresses = [] := by
  unfold fallBack
  simp only [h.1, hbackup, hstale, List.isEmpty_nil, if_true, Bool.and_false, Bool.false_eq_true,
    if_false]

/-- Without lookups, entries and backup addresses, a resolve finds nothing. -/
theorem addresses_of_maxActiveLookups (h : st.config.maxActiveLookups = 0) (hcache : st.cache = ∅)
    (hbackup : st.backupIps = ∅) :
    (resolveName inet env host networkEpoch timeoutMs st).1.result.addresses = [] := by
  have hread : readCache env.cacheNowMs host networkEpoch st =
      { httpdnsLookup := st.httpdnsLookup, backupIps := [] } := by
    unfold readCache
    rw [hcache, hbackup]
    rfl
  have hgather : (gather inet env timeoutMs (readCache env.cacheNowMs host networkEpoch st) st).addresses
      = [] := by
    rw [hread]
    exact addresses_fallBack_of_idle (idle_askLocalDns (idle_askHttpDns ⟨rfl, h⟩)) rfl rfl
  unfold resolveName writeBack
  dsimp only
  rw [hgather]
  exact List.mergeSort_nil

end

/-- What every run of resolves keeps. -/
structure Bounded (inet : Inet) (config : Config) (K : Set (Bytes × ℕ)) (s : Session) : Prop where
  sameConfig : s.st.config = config
  named : ∀ key ∈ s.st.cache, ∃ n ∈ names inet K, cacheKey n.1 n.2 = key
  size : s.st.cache.entries.length ≤ config.maxCacheEntries
  backup : s.st.backupIps = ∅
  idle : config.maxActiveLookups = 0 → s.st.cache = ∅

section

variable {inet : Inet} {config : Config} {K : Set (Bytes × ℕ)} {s s' : Session} {op : Op}

theorem bounded_init (httpdnsLookup : Bool) (clockMs : ℤ) :
    Bounded inet config K (Session.init config httpdnsLookup clockMs) where
  sameConfig := rfl
  named key hkey := absurd hkey (AList.notMem_empty key)
  size := Nat.zero_le _
  backup := rfl
  idle _ := rfl

theorem backupIps_resolveWithMetadata (inet : Inet) (env : ResolveEnv) (host : Bytes)
    (networkEpoch : ℕ) (timeoutMs : ℤ) (st : State) :
    (resolveWithMetadata inet env host networkEpoch timeoutMs st).2.backupIps = st.backupIps := by
  by_cases hname : IsName inet host
  · rw [resolveWithMetadata_of_isName hname]
    obtain ⟨n, hn⟩ := state_resolveName inet env host networkEpoch timeoutMs st
    rw [hn]
    exact (storeEntry_frame ..).2
  · rw [state_of_not_isName hname]

/-- **One resolve** keeps the invariant. -/
theorem bounded_step (hpos : 1 ≤ config.maxCacheEntries) (h : Bounded inet config K s)
    (hstep : ResolveStep inet K s op s') : Bounded inet config K s' := by
  obtain ⟨⟨-, rfl⟩, env, host, networkEpoch, timeoutMs, rfl, hK⟩ := hstep
  have hconfig := config_apply inet s (.resolve env host networkEpoch timeoutMs)
  have hbackup := backupIps_resolveWithMetadata inet env host networkEpoch timeoutMs s.st
  -- a resolve writes nothing, or one entry for its name
  rcases cache_resolveWithMetadata inet env host networkEpoch timeoutMs s.st with
    hsame | ⟨hname, hne, entry, hcache⟩
  · exact
      { sameConfig := hconfig.trans h.sameConfig
        named := by
          intro key hkey
          exact h.named key (hsame ▸ hkey)
        size := le_of_eq_of_le (congrArg (fun m => m.entries.length) hsame) h.size
        backup := hbackup.trans h.backup
        idle := fun hzero => hsame.trans (h.idle hzero) }
  · refine ⟨hconfig.trans h.sameConfig, ?_, ?_, hbackup.trans h.backup, ?_⟩
    · intro key hkey
      have hkey : key ∈ (makeRoom env.evict (cacheKey host networkEpoch) s.st).insert
        (cacheKey host networkEpoch) entry := hcache ▸ hkey
      rcases (AList.mem_insert _).mp hkey with rfl | hold
      · exact ⟨(host, networkEpoch), ⟨hK, hname⟩, rfl⟩
      · exact h.named key (mem_of_mem_makeRoom hold)
    · have hle := length_insert_makeRoom_le (h.sameConfig ▸ hpos) (h.sameConfig ▸ h.size) env.evict
        (cacheKey host networkEpoch) entry
      exact le_of_eq_of_le (congrArg (fun m => m.entries.length) hcache) (h.sameConfig ▸ hle)
    -- without a slot no lookup is made, so nothing is ever stored
    · intro hzero
      rw [resolveWithMetadata_of_isName hname] at hne
      exact absurd (addresses_of_maxActiveLookups (h.sameConfig ▸ hzero) (h.idle hzero) h.backup) hne

/-- A step that removes an entry is a resolve of a new name at capacity. -/
theorem full_of_removed (hstep : ResolveStep inet K s op s') {key : Bytes} (hkey : key ∈ s.st.cache)
    (hgone : key ∉ s'.st.cache) : s.st.config.maxCacheEntries ≤ s.st.cache.entries.length ∧
      ∃ n ∈ names inet K, cacheKey n.1 n.2 ∉ s.st.cache := by
  obtain ⟨⟨-, rfl⟩, env, host, networkEpoch, timeoutMs, rfl, hK⟩ := hstep
  rcases cache_resolveWithMetadata inet env host networkEpoch timeoutMs s.st with
    hsame | ⟨hname, -, entry, hcache⟩
  · exact absurd (hsame ▸ hkey) hgone
  · have hgone : key ∉ (makeRoom env.evict (cacheKey host networkEpoch) s.st).insert
      (cacheKey host networkEpoch) entry := hcache ▸ hgone
    rw [AList.mem_insert, not_or] at hgone
    by_cases hfull : s.st.config.maxCacheEntries ≤ s.st.cache.entries.length ∧
      cacheKey host networkEpoch ∉ s.st.cache
    · exact ⟨hfull.1, (host, networkEpoch), ⟨hK, hname⟩, hfull.2⟩
    · rw [makeRoom, if_neg hfull] at hgone
      exact absurd hkey hgone.2

theorem card_keys (m : AList fun _ : Bytes => CacheEntry) :
    m.keys.toFinset.card = m.entries.length := by
  rw [List.toFinset_card_of_nodup m.keys_nodup, length_keys]

/-- Evicting the oldest keeps the most recent. -/
theorem evictsOldest_of_oldest (hstep : ResolveStep inet K s op s')
    (h : ∀ key ∈ s.st.cache, key ∉ s'.st.cache →
      ∀ key' ∈ s.st.cache, key' ≠ key → Older s.resolved key key') : EvictsOldest s s' where
  oldest := h
  recent := by
    intro key hkey hsince
    by_contra hgone
    obtain ⟨hfull, -⟩ := full_of_removed hstep hkey hgone
    have hle : s.st.cache.keys.toFinset.card ≤ (since s.resolved key).card + 1 := by
      refine card_le_card_since fun key' hkey' hne => h key hkey hgone key' ?_ hne
      exact AList.mem_keys.mpr (List.mem_toFinset.mp hkey')
    rw [card_keys] at hle
    omega

/-- There are as many names as entries that have fitted, and one more for a new one. -/
theorem lt_encard_names (h : Bounded inet config K s) {n : Bytes × ℕ} (hn : n ∈ names inet K)
    (hnew : cacheKey n.1 n.2 ∉ s.st.cache) :
    (s.st.cache.entries.length : ℕ∞) + 1 ≤ (names inet K).encard := by
  have hsub : (↑(insert (cacheKey n.1 n.2) s.st.cache.keys.toFinset) : Set Bytes) ⊆
      (fun n : Bytes × ℕ => cacheKey n.1 n.2) '' names inet K := by
    intro key hkey
    rw [Finset.mem_coe, Finset.mem_insert, List.mem_toFinset, ← AList.mem_keys] at hkey
    rcases hkey with rfl | hkey
    · exact ⟨n, hn, rfl⟩
    · obtain ⟨n', hn', heq⟩ := h.named key hkey
      exact ⟨n', hn', heq⟩
  have hcard : (insert (cacheKey n.1 n.2) s.st.cache.keys.toFinset).card =
      s.st.cache.entries.length + 1 := by
    rw [Finset.card_insert_of_notMem, card_keys]
    rwa [List.mem_toFinset, ← AList.mem_keys]
  calc (s.st.cache.entries.length : ℕ∞) + 1
      = (↑(insert (cacheKey n.1 n.2) s.st.cache.keys.toFinset) : Set Bytes).encard := by
        rw [Set.encard_coe_eq_coe_finsetCard, hcard]
        rfl
    _ ≤ ((fun n : Bytes × ℕ => cacheKey n.1 n.2) '' names inet K).encard := Set.encard_le_encard hsub
    _ ≤ (names inet K).encard := Set.encard_image_le _ _

/-- There is never a choice between two entries. -/
def NoChoice (inet : Inet) (config : Config) (K : Set (Bytes × ℕ)) : Prop :=
  config.maxCacheEntries = 1 ∨ config.maxActiveLookups = 0 ∨
    (names inet K).encard ≤ config.maxCacheEntries

theorem evictsOldest_of_noChoice (hchoice : NoChoice inet config K) (h : Bounded inet config K s)
    (hstep : ResolveStep inet K s op s') : EvictsOldest s s' := by
  refine evictsOldest_of_oldest hstep fun key hkey hgone key' hkey' hne => absurd ?_ hne
  obtain ⟨hfull, n, hn, hnew⟩ := full_of_removed hstep hkey hgone
  rw [h.sameConfig] at hfull
  rcases hchoice with hone | hzero | hfew
  · -- one entry
    have hsize : s.st.cache.keys.toFinset.card ≤ 1 := by
      rw [card_keys, ← hone]
      exact h.size
    exact Finset.card_le_one.mp hsize key' (List.mem_toFinset.mpr (AList.mem_keys.mp hkey')) key
      (List.mem_toFinset.mpr (AList.mem_keys.mp hkey))
  · rw [h.idle hzero] at hkey
    exact absurd hkey (AList.notMem_empty key)
  · have hlt := (lt_encard_names h hn hnew).trans hfew
    have hlt : s.st.cache.entries.length + 1 ≤ config.maxCacheEntries := by exact_mod_cast hlt
    omega

end

/-! ### Filling the cache -/

section

variable {inet : Inet}

/-- An address any configuration allows. -/
def publicAddress : Cidr.Addr 4 := fun _ => 8

/-- A call at time zero that LocalDNS answers, after `active` lookup threads have ended. -/
def answeredEnv (active : ℕ) : ResolveEnv where
  startedMs := 0
  cacheNowMs := 0
  httpdns := { outcome := .late }
  localdns := { ended := active, outcome := .answered [.inet4 publicAddress] }
  writeNowMs := 0
  finishedMs := 0

theorem isSafeIp_publicAddress (allow : Bool) :
    isSafeIp inet (inet.ntop4 publicAddress) allow = some false := by
  unfold isSafeIp
  rw [ByteString.cStr_eq_self (inet.nul_notMem_ntop4 _), inet.pton4_ntop4]
  cases allow <;> rfl

theorem runBoundedLookup_of_answered {α : Type} {value : α} {st : State}
    (h : 1 ≤ st.config.maxActiveLookups) :
    runBoundedLookup { ended := st.activeLookups, outcome := .answered value } st =
      (some value, false, { st with activeLookups := 1 }) := by
  unfold runBoundedLookup
  dsimp only
  rw [Nat.sub_self, if_neg (by omega)]

/-- A resolve of a new name that LocalDNS answers. -/
theorem state_of_answered {host : Bytes} {networkEpoch : ℕ} {st : State} (hname : IsName inet host)
    (hactive : 1 ≤ st.config.maxActiveLookups) (hprovider : st.httpdnsLookup = false)
    (hquality : st.quality = {}) (hnew : cacheKey host networkEpoch ∉ st.cache) :
    ∃ entry, (resolveWithMetadata inet (answeredEnv st.activeLookups) host networkEpoch 1 st).2 =
      { st with
        activeLookups := 1
        cache := (makeRoom 0 (cacheKey host networkEpoch) st).insert (cacheKey host networkEpoch)
          entry } := by
  -- nothing is cached, HttpDNS has no provider, and LocalDNS answers with one public address
  have hread : readCache 0 host networkEpoch st =
      { httpdnsLookup := false, backupIps := (st.backupIps.lookup host).getD [] } := by
    unfold readCache
    rw [AList.lookup_eq_none.mpr hnew, hprovider]
  have hgather : gather inet (answeredEnv st.activeLookups) 1 (readCache 0 host networkEpoch st) st =
      { addresses := [{ ip := inet.ntop4 publicAddress, ipv6 := false, source := .localDns }]
        via := .localDns
        st := { st with activeLookups := 1 } } := by
    have hlocal : resolveLocal inet [.inet4 publicAddress] st.config.allowPrivateAddresses =
        [{ ip := inet.ntop4 publicAddress, ipv6 := false, source := .localDns }] := by
      simp [resolveLocal, resolveLocalLoop, AddrInfo.text, isSafeIp_publicAddress]
    rw [hread]
    simp [gather, askHttpDns, askLocalDns, fallBack, answeredEnv, hquality,
      runBoundedLookup_of_answered hactive, hlocal]
  -- the address is public, so both filters keep it
  have hfilter : filterFinal inet st.config.allowPrivateAddresses
      [{ ip := inet.ntop4 publicAddress, ipv6 := false, source := .localDns }] =
      [{ ip := inet.ntop4 publicAddress, ipv6 := false, source := .localDns }] := by
    simp [filterFinal, isSafeIp_publicAddress]
  rw [resolveWithMetadata_of_isName hname, resolveName, writeBack]
  dsimp only
  rw [show (answeredEnv st.activeLookups).cacheNowMs = 0 from rfl, hgather]
  dsimp only
  rw [hfilter]
  -- what is ranked is not empty, so it is stored
  have hne : rankAddresses host networkEpoch { st with activeLookups := 1 }
      [{ ip := inet.ntop4 publicAddress, ipv6 := false, source := .localDns }] ≠ [] := by
    rw [← List.length_pos_iff, rankAddresses, List.length_mergeSort]
    exact Nat.one_pos
  obtain ⟨entry, hentry⟩ := storeEntry_of_ne_nil hne 0 0 (cacheKey host networkEpoch)
    { st with activeLookups := 1 }
  exact ⟨entry, hentry⟩

/-- The cache holds these hosts and epochs, resolved in this order, newest first. -/
structure Filled (config : Config) (filled : List (Bytes × ℕ)) (s : Session) : Prop where
  sameConfig : s.st.config = config
  provider : s.st.httpdnsLookup = false
  quality : s.st.quality = {}
  clock : s.clockMs = 0
  keys : s.st.cache.keys = filled.map fun n => cacheKey n.1 n.2
  resolved : s.resolved = filled.map fun n => cacheKey n.1 n.2

/-- The resolve of a new name. -/
def answeredOp (s : Session) (n : Bytes × ℕ) : Op :=
  .resolve (answeredEnv s.st.activeLookups) n.1 n.2 1

variable {config : Config} {K : Set (Bytes × ℕ)} {s : Session} {filled : List (Bytes × ℕ)}
  {n : Bytes × ℕ}

theorem Filled.mem_cache_iff (h : Filled config filled s) :
    cacheKey n.1 n.2 ∈ s.st.cache ↔ n ∈ filled := by
  rw [AList.mem_keys, h.keys, List.mem_map]
  constructor
  · rintro ⟨n', hn', heq⟩
    obtain ⟨hhost, hepoch⟩ := cacheKey_inj.mp heq
    rwa [← Prod.ext hhost hepoch]
  · intro hn
    exact ⟨n, hn, rfl⟩

theorem Filled.length (h : Filled config filled s) : s.st.cache.entries.length = filled.length := by
  rw [← length_keys, h.keys, List.length_map]

theorem resolveStep_answeredOp (h : Filled config filled s) (hn : n ∈ names inet K) :
    ResolveStep inet K s (answeredOp s n) (s.apply inet (answeredOp s n)) := by
  refine ⟨⟨?_, rfl⟩, _, n.1, n.2, 1, rfl, hn.1⟩
  rw [h.clock]
  simp [answeredOp, answeredEnv, Op.readings]

theorem resolved_answeredOp (s : Session) (n : Bytes × ℕ) :
    (s.apply inet (answeredOp s n)).resolved = cacheKey n.1 n.2 :: s.resolved := by
  obtain ⟨hhost, hepoch, -⟩ := resolveWithMetadata_cases inet (answeredEnv s.st.activeLookups) n.1 n.2 1
    s.st (Prod.mk.eta (p := resolveWithMetadata inet (answeredEnv s.st.activeLookups) n.1 n.2 1 s.st)).symm
  unfold answeredOp Session.apply Session.resolved
  dsimp only
  rw [List.map_cons, hhost, hepoch]

/-- **One more name** fits, as long as there is room. -/
theorem filled_cons (hactive : 1 ≤ config.maxActiveLookups) (h : Filled config filled s)
    (hn : n ∈ names inet K) (hnew : n ∉ filled) (hroom : filled.length < config.maxCacheEntries) :
    Filled config (n :: filled) (s.apply inet (answeredOp s n)) := by
  have hnotMem : cacheKey n.1 n.2 ∉ s.st.cache := mt h.mem_cache_iff.mp hnew
  obtain ⟨entry, hstate⟩ := state_of_answered hn.2 (h.sameConfig ▸ hactive) h.provider h.quality hnotMem
  -- there is room, so nothing is evicted
  have hroom' : makeRoom 0 (cacheKey n.1 n.2) s.st = s.st.cache := by
    rw [makeRoom, if_neg]
    rw [h.sameConfig, h.length]
    omega
  rw [hroom'] at hstate
  have hst : (s.apply inet (answeredOp s n)).st = { s.st with
      activeLookups := 1
      cache := s.st.cache.insert (cacheKey n.1 n.2) entry } := hstate
  refine ⟨?_, ?_, ?_, rfl, ?_, ?_⟩
  · rw [hst]
    exact h.sameConfig
  · rw [hst]
    exact h.provider
  · rw [hst]
    exact h.quality
  -- the new key stands in front, which is the order the evictions follow
  · have hkeys : (s.st.cache.insert (cacheKey n.1 n.2) entry).keys =
        cacheKey n.1 n.2 :: s.st.cache.keys := by
      rw [AList.keys, AList.entries_insert_of_notMem hnotMem]
      rfl
    rw [hst, hkeys, h.keys]
    rfl
  · rw [resolved_answeredOp, h.resolved]
    rfl

/-- The cache can be filled with any names. -/
theorem exists_filled (hactive : 1 ≤ config.maxActiveLookups) (hnodup : filled.Nodup)
    (hnames : ∀ n ∈ filled, n ∈ names inet K) (hroom : filled.length ≤ config.maxCacheEntries) :
    ∃ ops s, Transition.Run (ResolveStep inet K) (Session.init config false 0) ops s ∧
      Filled config filled s := by
  induction filled with
  | nil => exact ⟨[], _, .nil, ⟨rfl, rfl, rfl, rfl, rfl, rfl⟩⟩
  | cons n filled ih =>
    obtain ⟨hnew, hnodup⟩ := List.nodup_cons.mp hnodup
    rw [List.length_cons] at hroom
    obtain ⟨ops, s, hrun, hfilled⟩ := ih hnodup
      (fun n' hn' => hnames n' (List.mem_cons_of_mem n hn')) (by omega)
    have hn := hnames n List.mem_cons_self
    exact ⟨_, _, .snoc hrun (resolveStep_answeredOp hfilled hn),
      filled_cons hactive hfilled hn hnew (by omega)⟩

/-- A full cache of two entries or more evicts the newest one where the iteration begins with it. -/
theorem not_lruFor {newest second : Bytes × ℕ} {older : List (Bytes × ℕ)}
    (hactive : 1 ≤ config.maxActiveLookups) (hnodup : (n :: newest :: second :: older).Nodup)
    (hnames : ∀ n' ∈ n :: newest :: second :: older, n' ∈ names inet K)
    (hfull : (newest :: second :: older).length = config.maxCacheEntries) :
    ¬ LruFor inet config K := by
  intro hlru
  obtain ⟨hnew, hnodup⟩ := List.nodup_cons.mp hnodup
  -- fill the cache with the other names, the newest last
  obtain ⟨ops, s, hrun, h⟩ := exists_filled hactive hnodup
    (fun n' hn' => hnames n' (List.mem_cons_of_mem n hn')) hfull.le
  have hn := hnames n List.mem_cons_self
  have hnotMem : cacheKey n.1 n.2 ∉ s.st.cache := mt h.mem_cache_iff.mp hnew
  obtain ⟨entry, hstate⟩ := state_of_answered hn.2 (h.sameConfig ▸ hactive) h.provider h.quality hnotMem
  -- `begin()` is the entry that was stored last
  have hroom : makeRoom 0 (cacheKey n.1 n.2) s.st = s.st.cache.erase (cacheKey newest.1 newest.2) := by
    rw [makeRoom, if_pos ⟨by rw [h.sameConfig, h.length, hfull], hnotMem⟩, eraseFirst, Nat.zero_mod, h.keys]
    rfl
  rw [hroom] at hstate
  have hevicts := (hlru false 0 ops s _ _ hrun (resolveStep_answeredOp h hn)).oldest
    (cacheKey newest.1 newest.2) (h.mem_cache_iff.mpr List.mem_cons_self) ?_
    (cacheKey second.1 second.2) (h.mem_cache_iff.mpr (List.mem_cons_of_mem _ List.mem_cons_self)) ?_
  · -- nothing was resolved after the newest
    rw [h.resolved] at hevicts
    exact not_older_head hevicts
  · have hst : (s.apply inet (answeredOp s n)).st.cache =
        (s.st.cache.erase (cacheKey newest.1 newest.2)).insert (cacheKey n.1 n.2) entry :=
      congrArg State.cache hstate
    rw [hst, AList.mem_insert, AList.mem_erase]
    rintro (heq | ⟨hne, -⟩)
    · obtain ⟨hhost, hepoch⟩ := cacheKey_inj.mp heq
      exact hnew (Prod.ext hhost hepoch ▸ List.mem_cons_self)
    · exact hne rfl
  · intro heq
    obtain ⟨hhost, hepoch⟩ := cacheKey_inj.mp heq
    exact (List.nodup_cons.mp hnodup).1 (Prod.ext hhost hepoch ▸ List.mem_cons_self)

end

/-! ### The exact condition -/

section

variable {inet : Inet} {config : Config} {K : Set (Bytes × ℕ)}

/-- **The cache evicts the least recently resolved entry** exactly where it never has a choice. -/
theorem lru_iff (hpos : 1 ≤ config.maxCacheEntries) : LruFor inet config K ↔
    config.maxCacheEntries = 1 ∨ config.maxActiveLookups = 0 ∨
      (names inet K).encard ≤ config.maxCacheEntries := by
  constructor
  · intro hlru
    by_contra hchoice
    rw [not_or, not_or, not_le] at hchoice
    obtain ⟨hone, hzero, hmany⟩ := hchoice
    -- one name more than there are entries
    obtain ⟨few, hsub, hcard⟩ := Set.exists_subset_encard_eq (Order.add_one_le_of_lt hmany)
    have hfinite : few.Finite := Set.finite_of_encard_eq_coe (k := config.maxCacheEntries + 1) hcard
    have hlength : hfinite.toFinset.toList.length = config.maxCacheEntries + 1 := by
      rw [Finset.length_toList]
      have := hfinite.encard_eq_coe_toFinset_card.symm.trans hcard
      exact_mod_cast this
    have hnames : ∀ n ∈ hfinite.toFinset.toList, n ∈ names inet K := by
      intro n hn
      rw [Finset.mem_toList, hfinite.mem_toFinset] at hn
      exact hsub hn
    have hnodup := hfinite.toFinset.nodup_toList
    -- three names at least, since there are two entries at least
    generalize hfinite.toFinset.toList = l at hlength hnames hnodup
    obtain - | ⟨n, - | ⟨newest, - | ⟨second, older⟩⟩⟩ := l
    · simp at hlength
    · rw [List.length_singleton] at hlength
      omega
    · rw [List.length_cons, List.length_singleton] at hlength
      omega
    · refine not_lruFor (by omega) hnodup hnames ?_ hlru
      rw [List.length_cons] at hlength
      omega
  -- without a choice every eviction is of the only entry, or there is none
  · intro hchoice httpdnsLookup clockMs ops s op s' hrun hstep
    have hbounded : Bounded inet config K s :=
      hrun.invariant (fun _ _ _ h hs => bounded_step hpos h hs) (bounded_init httpdnsLookup clockMs)
    exact evictsOldest_of_noChoice hchoice hbounded hstep

/-- Three hosts. -/
def threeHosts : List (Bytes × ℕ) := [("c", 1), ("b", 1), ("a", 1)].map fun n =>
  (ByteString.ascii n.1, n.2)

theorem mem_names_of_mem_threeHosts {n : Bytes × ℕ} (hn : n ∈ threeHosts) :
    n ∈ names .plain {n | n ∈ threeHosts} := by
  have hall : ∀ n ∈ threeHosts, IsName .plain n.1 := by decide +kernel
  exact ⟨hn, hall n hn⟩

theorem lru_iff_two_hosts : LruFor .plain { maxCacheEntries := 2 }
    {(ByteString.ascii "a", 1), (ByteString.ascii "b", 1)} := by
  refine (lru_iff (by decide)).mpr (.inr (.inr ?_))
  refine (Set.encard_le_encard (Set.sep_subset _ _)).trans ((Set.encard_insert_le _ _).trans ?_)
  rw [Set.encard_singleton]
  rfl

/-- Two entries, three hosts: resolving the third one evicts the second and keeps the first. -/
theorem not_lru : ¬ LruFor .plain { maxCacheEntries := 2 } {n | n ∈ threeHosts} := by
  have hnodup : threeHosts.Nodup := by decide +kernel
  exact not_lruFor (by decide) hnodup (fun _ hn => mem_names_of_mem_threeHosts hn) rfl

end

end AsterNet.Dns
