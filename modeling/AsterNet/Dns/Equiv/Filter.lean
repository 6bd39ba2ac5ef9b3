import AsterNet.Dns.Resolver
import AsterNet.Dns.Equiv.SafeIp

/-!
# The filters keep the allowed addresses, and drop no other

With private addresses off, each of the four places that filter (`filterHttpDns`, `filterFinal`,
`resolveLocal`, `safeBackupIps`) keeps exactly the allowed addresses of what it is given, as a set.
`supplied_gather` says what the tier that serves a call has supplied.
-/

namespace AsterNet.Dns

variable (inet : Inet)

/-- The addresses of a list of results. -/
def ips (addresses : List IpResult) : List Bytes := addresses.map (·.ip)

/-! ### The filters -/

/-- A `remove_if` adds no address. -/
theorem mem_ips_of_mem_ips_filterMap {keep : IpResult → Option IpResult}
    (hip : ∀ item b, keep item = some b → b.ip = item.ip) {addresses : List IpResult} {ip : Bytes}
    (h : ip ∈ ips (addresses.filterMap keep)) : ip ∈ ips addresses := by
  obtain ⟨b, hb, rfl⟩ := List.mem_map.mp h
  obtain ⟨item, hitem, hkeep⟩ := List.mem_filterMap.mp hb
  rw [hip item b hkeep]
  exact List.mem_map_of_mem hitem

theorem mem_ips_of_mem_ips_filterHttpDns {allow : Bool} {addresses : List IpResult} {ip : Bytes}
    (h : ip ∈ ips (filterHttpDns inet allow addresses)) : ip ∈ ips addresses := by
  refine mem_ips_of_mem_ips_filterMap (fun item b hb => ?_) h
  obtain ⟨_, -, rfl⟩ := Option.map_eq_some_iff.mp hb
  rfl

theorem mem_ips_of_mem_ips_filterFinal {allow : Bool} {addresses : List IpResult} {ip : Bytes}
    (h : ip ∈ ips (filterFinal inet allow addresses)) : ip ∈ ips addresses := by
  refine mem_ips_of_mem_ips_filterMap (fun item b hb => ?_) h
  obtain ⟨_, -, rfl⟩ := Option.map_eq_some_iff.mp hb
  rfl

theorem mem_ips_of_mem_ips_safeBackupIps {allow : Bool} {addresses : List IpResult} {ip : Bytes}
    (h : ip ∈ ips (safeBackupIps inet allow addresses)) : ip ∈ ips addresses := by
  refine mem_ips_of_mem_ips_filterMap (fun item b hb => ?_) h
  split_ifs at hb
  obtain ⟨_, -, rfl⟩ := Option.map_eq_some_iff.mp hb
  rfl

/-- A `remove_if` that keeps exactly the allowed addresses and does not change them. -/
theorem mem_ips_filterMap {keep : IpResult → Option IpResult}
    (hkeep : ∀ item, (keep item).isSome ↔ Allowed inet item.ip)
    (hip : ∀ item b, keep item = some b → b.ip = item.ip) {addresses : List IpResult} {ip : Bytes} :
    ip ∈ ips (addresses.filterMap keep) ↔ ip ∈ ips addresses ∧ Allowed inet ip := by
  simp only [ips, List.mem_map, List.mem_filterMap]
  constructor
  · rintro ⟨b, ⟨item, hitem, hb⟩, rfl⟩
    have hallowed := (hkeep item).mp (by rw [hb]; rfl)
    rw [hip item b hb]
    exact ⟨⟨item, hitem, rfl⟩, hallowed⟩
  · rintro ⟨⟨item, hitem, rfl⟩, hallowed⟩
    obtain ⟨b, hb⟩ := Option.isSome_iff_exists.mp ((hkeep item).mpr hallowed)
    exact ⟨b, ⟨item, hitem, hb⟩, hip item b hb⟩

theorem mem_ips_filterHttpDns {addresses : List IpResult} {ip : Bytes} :
    ip ∈ ips (filterHttpDns inet false addresses) ↔ ip ∈ ips addresses ∧ Allowed inet ip := by
  refine mem_ips_filterMap inet ?_ ?_
  · intro item
    rw [Option.isSome_map, isSafeIp_isSome_iff]
  · rintro item _ hb
    obtain ⟨_, -, rfl⟩ := Option.map_eq_some_iff.mp hb
    rfl

theorem mem_ips_filterFinal {addresses : List IpResult} {ip : Bytes} :
    ip ∈ ips (filterFinal inet false addresses) ↔ ip ∈ ips addresses ∧ Allowed inet ip := by
  refine mem_ips_filterMap inet ?_ ?_
  · intro item
    rw [Option.isSome_map, isSafeIp_isSome_iff]
  · rintro item _ hb
    obtain ⟨_, -, rfl⟩ := Option.map_eq_some_iff.mp hb
    rfl

theorem mem_ips_safeBackupIps {addresses : List IpResult} {ip : Bytes} :
    ip ∈ ips (safeBackupIps inet false addresses) ↔ ip ∈ ips addresses ∧ Allowed inet ip := by
  refine mem_ips_filterMap inet ?_ ?_
  · intro item
    split_ifs with hnum
    · rw [Option.isSome_map, isSafeIp_isSome_iff]
    · rw [isNumericIp_isSome_iff] at hnum
      exact iff_of_false (by simp) fun h => hnum h.1
  · rintro item _ hb
    split_ifs at hb
    obtain ⟨_, -, rfl⟩ := Option.map_eq_some_iff.mp hb
    rfl

/-- The numeric texts of a `getaddrinfo` list. -/
def texts (raw : List AddrInfo) : List Bytes := raw.filterMap (·.text inet)

/-- The loop of `resolve_local` adds the allowed texts it has not seen. -/
theorem mem_ips_resolveLocalLoop {raw : List AddrInfo} {seen : List Bytes} {ip : Bytes} :
    ip ∈ ips (resolveLocalLoop inet false raw seen) ↔
      ip ∈ texts inet raw ∧ Allowed inet ip ∧ ip ∉ seen := by
  -- the induction is on the answers that are left, for every set of texts already seen
  induction raw generalizing seen with
  | nil => simp [resolveLocalLoop, ips, texts]
  | cons item raw ih =>
    unfold resolveLocalLoop texts
    cases htext : item.text inet with
    | none =>
      rw [List.filterMap_cons, htext]
      exact ih
    | some text =>
      have hsafe := isSafeIp_isSome_iff inet text
      simp only [List.filterMap_cons, htext, List.mem_cons]
      rw [← texts]
      cases hkeep : isSafeIp inet text false with
      | none =>
        -- a text that is not allowed is skipped
        have hno : ¬ Allowed inet text := by rw [← hsafe, hkeep]; simp
        rw [ih]
        constructor
        · rintro ⟨hmem, hrest⟩
          exact ⟨.inr hmem, hrest⟩
        · rintro ⟨rfl | hmem, hrest⟩
          · exact absurd hrest.1 hno
          · exact ⟨hmem, hrest⟩
      | some ipv6 =>
        have hyes : Allowed inet text := by rw [← hsafe, hkeep]; simp
        dsimp only
        split_ifs with hseen
        · -- a text seen before is skipped
          rw [ih]
          constructor
          · rintro ⟨hmem, hrest⟩
            exact ⟨.inr hmem, hrest⟩
          · rintro ⟨rfl | hmem, hrest⟩
            · exact absurd hseen hrest.2
            · exact ⟨hmem, hrest⟩
        · have hcons : ∀ rest, ip ∈ ips ({ ip := text, ipv6, source := .localDns } :: rest) ↔
              ip = text ∨ ip ∈ ips rest := by simp [ips]
          rw [hcons, ih]
          constructor
          · rintro (rfl | ⟨hmem, hallowed, hnot⟩)
            · exact ⟨.inl rfl, hyes, hseen⟩
            · exact ⟨.inr hmem, hallowed, fun h => hnot (List.mem_cons_of_mem _ h)⟩
          · rintro ⟨rfl | hmem, hallowed, hnot⟩
            · exact .inl rfl
            · rcases eq_or_ne ip text with rfl | hne
              · exact .inl rfl
              · exact .inr ⟨hmem, hallowed, by simp [hne, hnot]⟩

theorem mem_ips_resolveLocal {raw : List AddrInfo} {ip : Bytes} :
    ip ∈ ips (resolveLocal inet raw false) ↔ ip ∈ texts inet raw ∧ Allowed inet ip := by
  simp [resolveLocal, mem_ips_resolveLocalLoop]

@[simp] theorem rank_ip (quality : NetworkQuality) (entry : Option Health) (item : IpResult) :
    (rank quality entry item).ip = item.ip := rfl

@[simp] theorem rank_source (quality : NetworkQuality) (entry : Option Health) (item : IpResult) :
    (rank quality entry item).source = item.source := rfl

/-- Ranking changes neither the addresses nor their sources, only their order. -/
theorem mem_rankAddresses {host : Bytes} {networkEpoch : ℕ} {st : State}
    {addresses : List IpResult} {a : IpResult}
    (h : a ∈ rankAddresses host networkEpoch st addresses) :
    ∃ b ∈ addresses, b.ip = a.ip ∧ b.source = a.source := by
  rw [rankAddresses, List.mem_mergeSort, List.mem_map] at h
  obtain ⟨b, hb, rfl⟩ := h
  exact ⟨b, hb, rfl, rfl⟩

theorem mem_ips_rankAddresses {host : Bytes} {networkEpoch : ℕ} {st : State}
    {addresses : List IpResult} {ip : Bytes} :
    ip ∈ ips (rankAddresses host networkEpoch st addresses) ↔ ip ∈ ips addresses := by
  simp [ips, rankAddresses]

/-! ### The tiers -/

/-- A bounded lookup changes only the count of lookup threads, and assigns only what was answered. -/
theorem runBoundedLookup_spec {α : Type} (lookup : Lookup α) (st : State) :
    (∃ n, (runBoundedLookup lookup st).2.2 = { st with activeLookups := n }) ∧
      ∀ value, (runBoundedLookup lookup st).1 = some value → lookup.outcome = .answered value := by
  unfold runBoundedLookup
  dsimp only
  split_ifs with hfull
  · exact ⟨⟨_, rfl⟩, fun _ h => by cases h⟩
  · cases hout : lookup.outcome with
    | threadFailed => exact ⟨⟨_, rfl⟩, fun _ h => by cases h⟩
    | late => exact ⟨⟨_, rfl⟩, fun _ h => by cases h⟩
    | answered value =>
      exact ⟨⟨_, rfl⟩, fun _ h => by rw [Option.some.inj h]⟩

/-- The addresses a tier supplies and what it had to offer; only the count of lookup threads differs
between `st` and the state it leaves. -/
structure Supplied (env : ResolveEnv) (read : CacheRead) (st : State) (s : Supply) : Prop where
  state : ∃ n, s.st = { st with activeLookups := n }
  fresh : s.via = .fresh → s.addresses = read.addresses
  httpDns : s.via = .httpDns → s.addresses ≠ [] → ∃ answer, env.httpdns.outcome = .answered answer ∧
    s.addresses = filterHttpDns inet st.config.allowPrivateAddresses answer
  localDns : s.via = .localDns → s.addresses ≠ [] → ∃ raw, env.localdns.outcome = .answered raw ∧
    s.addresses = resolveLocal inet raw st.config.allowPrivateAddresses
  backup : s.via = .backup → s.addresses = read.backupIps
  stale : s.via = .stale → read.hasStaleEntry = true ∧ s.addresses = read.staleEntry
  kept : s.via ≠ .fresh → read.addresses = []
  notLiteral : s.via ≠ .literal ∧ s.via ≠ .nothing

variable {inet} {env : ResolveEnv} {read : CacheRead} {st : State} {s : Supply}

theorem supplied_askHttpDns (h : Supplied inet env read st s) (hvia : s.via = .fresh)
    (deadlineMs : ℤ) (allow : Bool) :
    Supplied inet env read st
      (askHttpDns inet env.httpdns read.httpdnsLookup deadlineMs allow s) := by
  unfold askHttpDns
  split_ifs with hask
  · have hempty : s.addresses = [] := by
      simp only [Bool.and_eq_true, List.isEmpty_iff] at hask
      exact hask.1.1.1
    obtain ⟨⟨n, hst⟩, hanswer⟩ := runBoundedLookup_spec env.httpdns s.st
    obtain ⟨m, hm⟩ := h.state
    have hconfig : s.st.config = st.config := by rw [hm]
    rcases hrun : runBoundedLookup env.httpdns s.st with ⟨value, timedOut, st'⟩
    rw [hrun] at hst hanswer
    dsimp only at hst hanswer ⊢
    subst hst
    refine ⟨⟨n, by rw [hm]⟩, by simp, ?_, by simp, by simp, by simp, ?_, by simp⟩
    · intro _ hne
      cases value with
      | none => simp [hempty, filterHttpDns] at hne
      | some answer => exact ⟨answer, hanswer answer rfl, by rw [← hconfig]; rfl⟩
    · intro _
      rw [← h.fresh hvia, hempty]
  · exact h

theorem supplied_askLocalDns (h : Supplied inet env read st s) (deadlineMs : ℤ) (allow : Bool) :
    Supplied inet env read st (askLocalDns inet env.localdns deadlineMs allow s) := by
  unfold askLocalDns
  split_ifs with hask
  · have hempty : s.addresses = [] := by
      simp only [Bool.and_eq_true, List.isEmpty_iff] at hask
      exact hask.1.1
    obtain ⟨⟨n, hst⟩, hanswer⟩ := runBoundedLookup_spec env.localdns s.st
    obtain ⟨m, hm⟩ := h.state
    have hconfig : s.st.config = st.config := by rw [hm]
    rcases hrun : runBoundedLookup env.localdns s.st with ⟨value, timedOut, st'⟩
    rw [hrun] at hst hanswer
    dsimp only at hst hanswer ⊢
    subst hst
    refine ⟨⟨n, by rw [hm]⟩, by simp, by simp, ?_, by simp, by simp, ?_, by simp⟩
    · intro _ hne
      cases value with
      | none => simp [hempty] at hne
      | some raw => exact ⟨raw, hanswer raw rfl, by rw [← hconfig]⟩
    · intro _
      by_cases hvia : s.via = .fresh
      · rw [← h.fresh hvia, hempty]
      · exact h.kept hvia
  · exact h

theorem supplied_fallBack (h : Supplied inet env read st s) :
    Supplied inet env read st (fallBack read s) := by
  -- first the backup addresses, then the stale ones, each only where nothing else is left
  have hbackup : Supplied inet env read st
      (if s.addresses.isEmpty then { s with addresses := read.backupIps, via := .backup } else s) := by
    split_ifs with hempty
    · refine ⟨h.state, by simp, by simp, by simp, by simp, by simp, ?_, by simp⟩
      intro _
      by_cases hvia : s.via = .fresh
      · rw [← h.fresh hvia, List.isEmpty_iff.mp hempty]
      · exact h.kept hvia
    · exact h
  unfold fallBack
  dsimp only
  generalize (if s.addresses.isEmpty then
    { s with addresses := read.backupIps, via := .backup } else s : Supply) = s' at hbackup ⊢
  split_ifs with hstale
  · rw [Bool.and_eq_true, List.isEmpty_iff] at hstale
    refine ⟨hbackup.state, by simp, by simp, by simp, by simp, fun _ => ⟨hstale.2, rfl⟩, ?_, by simp⟩
    intro _
    by_cases hvia : s'.via = .fresh
    · rw [← hbackup.fresh hvia, hstale.1]
    · exact hbackup.kept hvia
  · exact hbackup

/-- A result without addresses has been through every tier. -/
theorem via_of_fallBack_eq_nil (h : (fallBack read s).addresses = []) :
    (fallBack read s).via = .backup ∨ (fallBack read s).via = .stale := by
  unfold fallBack at h ⊢
  by_cases hempty : s.addresses.isEmpty = true
  · by_cases hstale : (read.backupIps.isEmpty && read.hasStaleEntry) = true
    · simp [hempty, hstale]
    · simp [hempty, hstale]
  · simp [hempty] at h
    simp [h] at hempty

/-- **The tiers**: what `gather` supplies is what the tier it names had to offer. -/
theorem supplied_gather (inet : Inet) (env : ResolveEnv) (timeoutMs : ℤ) (read : CacheRead)
    (st : State) : Supplied inet env read st (gather inet env timeoutMs read st) := by
  refine supplied_fallBack (supplied_askLocalDns (supplied_askHttpDns ?_ rfl _ _) _ _)
  exact ⟨⟨st.activeLookups, rfl⟩, by simp, by simp, by simp, by simp, by simp, by simp, by simp⟩

end AsterNet.Dns
