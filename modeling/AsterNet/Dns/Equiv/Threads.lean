import AsterNet.Dns.Equiv.Resolve
import AsterNet.Dns.Threads

/-!
# What the sections of concurrent calls do

`Stepped` lists what one section can come to.  The inversions of the data steps of a call follow:
`settle_cases` for the fallback, `lookup_write` for the write back.
-/

namespace AsterNet.Dns

namespace Threads

variable {ι : Type} [DecidableEq ι] {inet : Inet} {m m' : Machine ι} {h h' : List Event} {t : ι}

namespace Machine

/-- What holds of every call holds after one of them has moved on. -/
theorem forall_calls_goto {P : Stage → Call → Prop} {call : Option (Stage × Call)}
    (hold : ∀ u stage c, m.calls u = some (stage, c) → P stage c)
    (hnew : ∀ stage c, call = some (stage, c) → P stage c) :
    ∀ u stage c, (m.goto t call).calls u = some (stage, c) → P stage c := by
  intro u stage c hu
  rcases eq_or_ne u t with rfl | hne
  · rw [goto_calls_self] at hu
    exact hnew stage c hu
  · rw [goto_calls_of_ne m hne] at hu
    exact hold u stage c hu

/-- The data of the calls, of the cache and of the configuration are the same. -/
structure SameData (m₁ m : Machine ι) : Prop where
  calls : m₁.calls = m.calls
  origins : m₁.origins = m.origins
  config : m₁.st.config = m.st.config
  cache : m₁.st.cache = m.st.cache
  backupIps : m₁.st.backupIps = m.st.backupIps

end Machine

/-- Why a call leaves a tier without an answer. -/
inductive Call.Unserved (config : Config) (c : Call) (tier : Tier) : Stage → Passage → Prop
  | refused (nowMs : ℤ) (active : ℕ) (passage : Passage)
      (hrefusal : c.refusal tier nowMs config active = some passage) :
      c.Unserved config tier (.gate tier) passage
  | noThread : c.Unserved config tier (.creating tier) .noThread
  | unanswered (nowMs : ℤ) (hlate : c.deadlineMs ≤ nowMs) :
      c.Unserved config tier (.waiting tier) .unanswered

/-- What one section can come to. -/
inductive Stepped (inet : Inet) (m : Machine ι) (h : List Event) (a : Act ι) :
    Machine ι → List Event → Prop
  | answered (host : Bytes) (networkEpoch : ℕ) (timeoutMs startedMs elapsedMs : ℤ)
      (result : ResolveResult) (hresult : immediate inet m.st.config host elapsedMs = some result) :
      Stepped inet m h a m
        [.returned { Call.new host networkEpoch timeoutMs startedMs h.length with via := .literal } result]
  | began (t : ι) (host : Bytes) (networkEpoch : ℕ) (timeoutMs startedMs : ℤ) :
      Stepped inet m h a
        (m.goto t (some (.started, .new host networkEpoch timeoutMs startedMs h.length))) []
  | looked (t : ι) (c : Call) (nowMs : ℤ) (hcall : m.calls t = some (.started, c)) :
      Stepped inet m h a (m.look h t c nowMs) []
  | qualityRead (t : ι) (c : Call) (hcall : m.calls t = some (.looked, c)) :
      Stepped inet m h a (m.readQuality t c) []
  | taken (t : ι) (tier : Tier) (c : Call) (hcall : m.calls t = some (.gate tier, c))
      (hnone : c.addresses = []) :
      Stepped inet m h a
        ((m.withState { m.st with activeLookups := m.st.activeLookups + 1 }).goto t
          (some (.creating tier, c))) []
  | created (t : ι) (tier : Tier) (c : Call) (hcall : m.calls t = some (.creating tier, c)) :
      Stepped inet m h a (m.goto t (some (.waiting tier, c))) []
  | left (t : ι) (tier : Tier) (c : Call) (stage : Stage) (passage : Passage) (m₁ : Machine ι)
      (hcall : m.calls t = some (stage, c)) (hunserved : c.Unserved m.st.config tier stage passage)
      (hsame : m₁.SameData m) :
      Stepped inet m h a (m₁.goto t (some (c.leave inet m.st tier passage))) []
  | servedHttpDns (t : ι) (c : Call) (addresses : List IpResult)
      (hcall : m.calls t = some (.waiting .httpDns, c)) :
      Stepped inet m h a (m.answerHttpDns inet h t c addresses).1
        [.answered .httpDns c.host c.networkEpoch addresses]
  | servedLocalDns (t : ι) (c : Call) (raw : List AddrInfo)
      (hcall : m.calls t = some (.waiting .localDns, c)) :
      Stepped inet m h a (m.answerLocalDns inet h t c raw).1
        [.answered .localDns c.host c.networkEpoch
          (resolveLocal inet raw m.st.config.allowPrivateAddresses)]
  | background (m₁ : Machine ι) (hsame : m₁.SameData m) : Stepped inet m h a m₁ []
  | wrote (t : ι) (c : Call) (nowMs : ℤ) (evict : ℕ) (hact : a = .write t nowMs evict)
      (hcall : m.calls t = some (.writing, c)) :
      Stepped inet m h a (m.write t c nowMs evict) []
  | finished (t : ι) (c : Call) (nowMs : ℤ) (hcall : m.calls t = some (.finishing, c)) :
      Stepped inet m h a (m.goto t none) [.returned c (c.result nowMs)]
  | invalidated (host : Bytes) :
      Stepped inet m h a (m.withState (invalidate host m.st)) [.invalidated host]
  | replaced (httpdnsLookup : Bool) :
      Stepped inet m h a (m.withState (setHttpdnsLookup httpdnsLookup m.st)) [.replaced]
  | configured (host : Bytes) (addresses : List IpResult) :
      Stepped inet m h a (m.withState (setBackupIps inet host addresses m.st)) [.configured host addresses]

theorem eq_nil_of_refusal_eq_none {c : Call} {tier : Tier} {nowMs : ℤ} {config : Config} {active : ℕ}
    (hnone : c.refusal tier nowMs config active = none) : c.addresses = [] := by
  unfold Call.refusal at hnone
  split_ifs at hnone with haddresses
  simpa using haddresses

/-- What the calls of `resolve_with_metadata` do. -/
theorem stepped_of_act {a : Act ι} {es : List Event} (hact : m.act inet h a = some (m', es)) :
    Stepped inet m h a m' es := by
  -- most sections leave the cache, the backup addresses and the configuration alone
  have hsame : ∀ st : State, st.config = m.st.config → st.cache = m.st.cache →
      st.backupIps = m.st.backupIps → (m.withState st).SameData m :=
    fun st hconfig hcache hbackup => ⟨rfl, rfl, hconfig, hcache, hbackup⟩
  -- each section is possible at one stage of a call only
  cases a with
  | begin t host networkEpoch timeoutMs startedMs finishedMs =>
    rw [Machine.act] at hact
    split at hact
    · unfold Machine.begin at hact
      dsimp only at hact
      split at hact
      · case h_1 result hresult =>
        cases hact
        exact .answered host networkEpoch timeoutMs startedMs _ result hresult
      · cases hact
        exact .began t host networkEpoch timeoutMs startedMs
    · cases hact
  | look t nowMs =>
    rw [Machine.act] at hact
    split at hact
    · case h_1 c hcall =>
      cases hact
      exact .looked t c nowMs hcall
    · cases hact
  | readQuality t =>
    rw [Machine.act] at hact
    split at hact
    · case h_1 c hcall =>
      cases hact
      exact .qualityRead t c hcall
    · cases hact
  | gate t nowMs =>
    rw [Machine.act] at hact
    split at hact
    · case h_1 tier c hcall =>
      unfold Machine.gate at hact
      -- the gate refuses the tier, or takes a slot for it
      split at hact
      · case h_1 passage hrefusal =>
        cases hact
        exact .left t tier c _ passage m hcall (.refused nowMs _ passage hrefusal)
          ⟨rfl, rfl, rfl, rfl, rfl⟩
      · case h_2 hrefusal =>
        cases hact
        exact .taken t tier c hcall (eq_nil_of_refusal_eq_none hrefusal)
    · cases hact
  | create t created =>
    rw [Machine.act] at hact
    split at hact
    · case h_1 tier c hcall =>
      unfold Machine.create at hact
      split_ifs at hact
      · cases hact
        exact .created t tier c hcall
      · cases hact
        exact .left t tier c _ .noThread _ hcall .noThread (hsame _ rfl rfl rfl)
    · cases hact
  | answerHttpDns t addresses =>
    rw [Machine.act] at hact
    split at hact
    · case h_1 c hcall =>
      cases hact
      exact .servedHttpDns t c addresses hcall
    · cases hact
  | answerLocalDns t raw =>
    rw [Machine.act] at hact
    split at hact
    · case h_1 c hcall =>
      cases hact
      exact .servedLocalDns t c raw hcall
    · cases hact
  | giveUp t nowMs =>
    rw [Machine.act] at hact
    split at hact
    · case h_1 tier c hcall =>
      split_ifs at hact with hlate
      cases hact
      exact .left t tier c _ .unanswered _ hcall (.unanswered nowMs hlate) ⟨rfl, rfl, rfl, rfl, rfl⟩
    · cases hact
  -- these steps are of lookups that nobody waits for any more
  | answerLate =>
    rw [Machine.act] at hact
    split_ifs at hact
    cases hact
    exact .background _ ⟨rfl, rfl, rfl, rfl, rfl⟩
  | endLookup =>
    rw [Machine.act] at hact
    split_ifs at hact
    cases hact
    exact .background _ ⟨rfl, rfl, rfl, rfl, rfl⟩
  | write t nowMs evict =>
    rw [Machine.act] at hact
    split at hact
    · case h_1 c hcall =>
      cases hact
      exact .wrote t c nowMs evict rfl hcall
    · cases hact
  | finish t nowMs =>
    rw [Machine.act] at hact
    split at hact
    · case h_1 c hcall =>
      cases hact
      exact .finished t c nowMs hcall
    · cases hact
  | invalidate host =>
    cases hact
    exact .invalidated host
  | setHttpdnsLookup httpdnsLookup =>
    cases hact
    exact .replaced httpdnsLookup
  | setBackupIps host addresses =>
    cases hact
    exact .configured host addresses
  -- feedback touches the health table only
  | report nowMs order host ip networkEpoch success rttMs =>
    cases hact
    obtain ⟨health, -, heq⟩ :=
      reportConnectionResult_frame nowMs order host ip networkEpoch success rttMs m.st
    rw [heq]
    exact .background _ (hsame _ rfl rfl rfl)
  | qualityChange snapshot =>
    cases hact
    exact .background _ (hsame _ rfl rfl rfl)
  | networkChange networkEpoch =>
    cases hact
    exact .background _ (hsame _ rfl rfl rfl)

theorem Steps.stepped {a : Act ι} (hs : Steps inet (m, h) a (m', h')) :
    ∃ es, Stepped inet m h a m' es ∧ h' = h ++ es := by
  obtain ⟨⟨m₁, es⟩, hact, heq⟩ := Option.map_eq_some_iff.mp hs
  obtain ⟨rfl, rfl⟩ := Prod.mk.inj heq
  exact ⟨es, stepped_of_act hact, rfl⟩

/-! ### The data of a call -/

/-- Where the addresses come from that a call writes back. -/
theorem settle_cases (c : Call) (st : State) {ip : Bytes} (hip : ip ∈ ips (c.settle inet st).addresses) :
    (c.settle inet st).via = c.via ∧ ip ∈ ips c.addresses ∨
    (c.settle inet st).via = .backup ∧ ip ∈ ips c.read.backupIps ∨
    (c.settle inet st).via = .stale ∧ ip ∈ ips c.read.staleEntry := by
  have hip' := mem_ips_of_mem_ips_filterFinal inet hip
  unfold Call.settle at hip ⊢
  unfold fallBack at hip' ⊢
  dsimp only at hip' ⊢
  by_cases haddresses : c.addresses.isEmpty
  · rw [if_pos haddresses] at hip' ⊢
    by_cases hbackup : (c.read.backupIps.isEmpty && c.read.hasStaleEntry) = true
    · rw [if_pos hbackup] at hip' ⊢
      exact .inr (.inr ⟨rfl, hip'⟩)
    · rw [if_neg hbackup] at hip' ⊢
      exact .inr (.inl ⟨rfl, hip'⟩)
  · have hkept : ¬ (c.addresses.isEmpty && c.read.hasStaleEntry) = true := by
      simp [Bool.eq_false_iff.mpr haddresses]
    rw [if_neg haddresses] at hip' ⊢
    rw [if_neg hkept] at hip' ⊢
    exact .inl ⟨rfl, hip'⟩

/-- A cache lookup finds the addresses of the entry of its key. -/
theorem exists_entry_of_mem_staleEntry {nowMs : ℤ} {host : Bytes} {networkEpoch : ℕ} {st : State}
    {ip : Bytes} (hip : ip ∈ ips (readCache nowMs host networkEpoch st).staleEntry) :
    ∃ e, st.cache.lookup (cacheKey host networkEpoch) = some e ∧ ip ∈ ips e.addresses := by
  rw [readCache_staleEntry] at hip
  cases hlook : st.cache.lookup (cacheKey host networkEpoch) with
  | none => simp [hlook] at hip
  | some e => exact ⟨e, rfl, by simpa [hlook] using hip⟩

theorem isEmpty_rankAddresses (host : Bytes) (networkEpoch : ℕ) (st : State) (addresses : List IpResult) :
    (rankAddresses host networkEpoch st addresses).isEmpty = addresses.isEmpty := by
  rw [rankAddresses, Bool.eq_iff_iff, List.isEmpty_iff_length_eq_zero, List.isEmpty_iff_length_eq_zero,
    List.length_mergeSort, List.length_map]

/-- The entries after a write back of the call `c`. -/
theorem lookup_write {c : Call} {nowMs : ℤ} {evict : ℕ} {key : Bytes} {e : CacheEntry}
    (he : (m.write t c nowMs evict).st.cache.lookup key = some e) :
    (key = cacheKey c.host c.networkEpoch ∧ c.addresses ≠ [] ∧
      (m.write t c nowMs evict).origins key = c.origin ∧ ∀ ip ∈ ips e.addresses, ip ∈ ips c.addresses) ∨
    (m.st.cache.lookup key = some e ∧ (m.write t c nowMs evict).origins key = m.origins key) := by
  have hempty := isEmpty_rankAddresses c.host c.networkEpoch m.st c.addresses
  unfold Machine.write writeBack at he ⊢
  dsimp only [Machine.goto] at he ⊢
  rw [hempty]
  rcases lookup_storeEntry he with ⟨rfl, hne, rfl⟩ | ⟨hother, hold⟩
  · have hne' : c.addresses ≠ [] := by
      rwa [← List.isEmpty_eq_false_iff, ← hempty, List.isEmpty_eq_false_iff]
    rw [if_neg (by simpa using hne'), Function.update_self]
    exact .inl ⟨rfl, hne', rfl, fun ip hip => mem_ips_rankAddresses.mp hip⟩
  · refine .inr ⟨hold, ?_⟩
    split_ifs with hnil
    · rfl
    · refine Function.update_of_ne (fun hkey => hother ⟨hkey, ?_⟩) _ _
      rw [← List.isEmpty_eq_false_iff, hempty, Bool.eq_false_iff]
      exact hnil

/-- A write back of some addresses leaves an entry with their origin. -/
theorem exists_lookup_write (m : Machine ι) (t : ι) {c : Call} (hne : c.addresses ≠ []) (nowMs : ℤ)
    (evict : ℕ) :
    ∃ e, (m.write t c nowMs evict).st.cache.lookup (cacheKey c.host c.networkEpoch) = some e ∧
      (m.write t c nowMs evict).origins (cacheKey c.host c.networkEpoch) = c.origin := by
  have hempty : ¬ (rankAddresses c.host c.networkEpoch m.st c.addresses).isEmpty = true := by
    rw [isEmpty_rankAddresses]
    simpa using hne
  unfold Machine.write writeBack storeEntry
  dsimp only [Machine.goto]
  rw [if_neg hempty, if_neg hempty, AList.lookup_insert, Function.update_self]
  exact ⟨_, rfl, rfl⟩

end Threads

end AsterNet.Dns
