import AsterNet.Dns.Equiv.Resolve

/-!
# The first tier with an allowed address serves the call

`offers` are the addresses each tier has for a call before any filter, in the order of the tiers.
`mem_ips_resolveWithMetadata`: without private addresses the addresses of a result are exactly the
allowed ones of the first tier that has any (`Serves`), and the result names that tier.

The filter at the end drops nothing here, for what a resolver keeps has passed it already (`Clean`,
`clean_of_reachable`).
-/

namespace AsterNet.Dns

variable (inet : Inet)

/-! ### What the tiers have to offer -/

/-- What a live lookup answers a call and the state it leaves; nothing where it is not asked. -/
def answered {α : Type} (lookup : Lookup (List α)) (asked : Bool) (st : State) : List α × State :=
  if asked then
    let (answer, _, st) := runBoundedLookup lookup st
    (answer.getD [], st)
  else ([], st)

/-- The addresses of the entry of a call, if it may still be used. -/
def cached (env : ResolveEnv) (host : Bytes) (networkEpoch : ℕ) (st : State)
    (until_ : CacheEntry → ℤ) : List Bytes :=
  match st.cache.lookup (cacheKey host networkEpoch) with
  | some entry => if env.cacheNowMs ≤ until_ entry then ips entry.addresses else []
  | none => []

/-- The tiers of a call for a name, each with the addresses it has to offer before any filter. -/
def offersOfName (env : ResolveEnv) (host : Bytes) (networkEpoch : ℕ) (timeoutMs : ℤ) (st : State) :
    List (Via × List Bytes) :=
  let deadlineMs := env.startedMs +
    max 1 (if 0 < timeoutMs then timeoutMs else st.config.defaultLookupTimeoutMs)
  let online := st.quality.quality != .offline
  let httpDns := answered env.httpdns
    (st.httpdnsLookup && decide (env.httpdns.nowMs < deadlineMs) && online) st
  let localDns := answered env.localdns (decide (env.localdns.nowMs < deadlineMs) && online) httpDns.2
  [(.fresh, cached env host networkEpoch st (·.expiresAtMs)),
    (.httpDns, ips httpDns.1),
    (.localDns, texts inet localDns.1),
    (.backup, ips ((st.backupIps.lookup host).getD [])),
    (.stale, cached env host networkEpoch st (·.staleUntilMs))]

/-- The tiers of a call: a numeric host is its own address, and the empty host has none. -/
def offers (env : ResolveEnv) (host : Bytes) (networkEpoch : ℕ) (timeoutMs : ℤ) (st : State) :
    List (Via × List Bytes) :=
  if host.isEmpty then []
  else if (isNumericIp inet host).isSome then [(.literal, [host])]
  else offersOfName inet env host networkEpoch timeoutMs st

/-- No tier has an allowed address. -/
def Idle (tiers : List (Via × List Bytes)) : Prop := ∀ tier ∈ tiers, ∀ ip ∈ tier.2, ¬ Allowed inet ip

/-- The tier offers the address, which is allowed, and no tier before it offers an allowed one. -/
def Serves (tiers : List (Via × List Bytes)) (via : Via) (ip : Bytes) : Prop :=
  ∃ before offered after, tiers = before ++ (via, offered) :: after ∧ Idle inet before ∧ ip ∈ offered ∧
    Allowed inet ip

section

variable {inet} {tiers : List (Via × List Bytes)} {tier : Via × List Bytes} {via : Via} {ip : Bytes}

theorem Serves.allowed (h : Serves inet tiers via ip) : Allowed inet ip := by
  obtain ⟨before, offered, after, -, -, -, hallowed⟩ := h
  exact hallowed

/-- One more tier serves where those before it are idle. -/
theorem serves_append_singleton : Serves inet (tiers ++ [tier]) via ip ↔
    Serves inet tiers via ip ∨ Idle inet tiers ∧ via = tier.1 ∧ ip ∈ tier.2 ∧ Allowed inet ip := by
  constructor
  · rintro ⟨before, offered, after, heq, hidle, hmem, hallowed⟩
    rcases List.eq_nil_or_concat after with rfl | ⟨after, last, rfl⟩
    · obtain ⟨rfl, htier⟩ := List.append_inj' heq rfl
      obtain rfl := List.singleton_inj.mp htier
      exact .inr ⟨hidle, rfl, hmem, hallowed⟩
    · rw [List.concat_eq_append, ← List.cons_append, ← List.append_assoc] at heq
      exact .inl ⟨before, offered, after, (List.append_inj' heq rfl).1, hidle, hmem, hallowed⟩
  · rintro (⟨before, offered, after, rfl, hidle, hmem, hallowed⟩ | ⟨hidle, rfl, hmem, hallowed⟩)
    · exact ⟨before, offered, after ++ [tier], by simp, hidle, hmem, hallowed⟩
    · exact ⟨tiers, tier.2, [], rfl, hidle, hmem, hallowed⟩

theorem not_serves_nil : ¬ Serves inet [] via ip := by
  rintro ⟨before, offered, after, heq, -⟩
  simp at heq

theorem serves_singleton : Serves inet [tier] via ip ↔ via = tier.1 ∧ ip ∈ tier.2 ∧ Allowed inet ip := by
  rw [← List.nil_append [tier], serves_append_singleton, or_iff_right not_serves_nil]
  exact and_iff_right fun tier htier => absurd htier List.not_mem_nil

/-- Either some tier serves the call, or all are idle. -/
theorem idle_iff : Idle inet tiers ↔ ∀ via ip, ¬ Serves inet tiers via ip := by
  constructor
  · rintro hidle via ip ⟨before, offered, after, rfl, -, hmem, hallowed⟩
    exact hidle (via, offered) (by simp) ip hmem hallowed
  · intro hno
    induction tiers using List.reverseRecOn with
    | nil => exact fun tier htier => absurd htier List.not_mem_nil
    | append_singleton tiers last ih =>
      have hidle : Idle inet tiers := ih fun via ip h =>
        hno via ip (serves_append_singleton.mpr (.inl h))
      intro tier htier ip hip hallowed
      rcases List.mem_append.mp htier with htier | htier
      · exact hidle tier htier ip hip hallowed
      · obtain rfl := List.mem_singleton.mp htier
        exact hno tier.1 ip (serves_append_singleton.mpr (.inr ⟨hidle, rfl, hip, hallowed⟩))

/-- At most one tier serves a call. -/
theorem Serves.via_eq {via' : Via} {ip' : Bytes} (h : Serves inet tiers via ip)
    (h' : Serves inet tiers via' ip') : via = via' := by
  induction tiers using List.reverseRecOn with
  | nil => exact absurd h not_serves_nil
  | append_singleton tiers last ih =>
    rcases serves_append_singleton.mp h with hold | ⟨hidle, hvia, -⟩
    · rcases serves_append_singleton.mp h' with hold' | ⟨hidle', -⟩
      · exact ih hold hold'
      · exact absurd hold (idle_iff.mp hidle' via ip)
    · rcases serves_append_singleton.mp h' with hold' | ⟨-, hvia', -⟩
      · exact absurd hold' (idle_iff.mp hidle via' ip')
      · rw [hvia, hvia']

end

/-! ### What a resolver keeps -/

/-- The cache and the backup addresses are allowed. -/
structure Clean (st : State) : Prop where
  cache : ∀ key e, st.cache.lookup key = some e → ∀ ip ∈ ips e.addresses, Allowed inet ip
  backup : ∀ host addresses, st.backupIps.lookup host = some addresses →
    ∀ ip ∈ ips addresses, Allowed inet ip

section

variable {inet} {env : ResolveEnv} {host : Bytes} {networkEpoch : ℕ} {timeoutMs : ℤ} {st : State}

/-- The addresses of a result have passed the filter. -/
theorem allowed_of_mem_resolveName (hconfig : st.config.allowPrivateAddresses = false) {ip : Bytes}
    (h : ip ∈ ips (resolveName inet env host networkEpoch timeoutMs st).1.result.addresses) :
    Allowed inet ip := by
  obtain ⟨n, hst⟩ := (supplied_gather inet env timeoutMs
    (readCache env.cacheNowMs host networkEpoch st) st).state
  simp only [resolveName, writeBack, mem_ips_rankAddresses, hst, hconfig, mem_ips_filterFinal] at h
  exact h.2

theorem clean_resolveWithMetadata (hconfig : st.config.allowPrivateAddresses = false)
    (hclean : Clean inet st) :
    Clean inet (resolveWithMetadata inet env host networkEpoch timeoutMs st).2 := by
  unfold resolveWithMetadata
  dsimp only
  split_ifs with hempty hnum
  · exact hclean
  · cases isSafeIp inet host st.config.allowPrivateAddresses <;> exact hclean
  · have hres := resolved_resolveName inet env host networkEpoch timeoutMs st
    refine ⟨fun key e he => ?_, fun name addresses => by rw [hres.backupIps]; exact hclean.backup _ _⟩
    -- an entry is the result that was just written back, or an older one
    rcases hres.cache key e he with ⟨-, -, rfl⟩ | ⟨-, hold⟩
    · exact fun ip hip => allowed_of_mem_resolveName hconfig hip
    · exact hclean.cache key e hold

theorem clean_setBackupIps (hconfig : st.config.allowPrivateAddresses = false) (hclean : Clean inet st)
    (name : Bytes) (addresses : List IpResult) : Clean inet (setBackupIps inet name addresses st) := by
  refine ⟨fun key e he => hclean.cache key e (UnorderedMap.lookup_of_lookup_eraseIf he), ?_⟩
  intro other kept hkept
  unfold setBackupIps at hkept
  dsimp only at hkept
  split_ifs at hkept with hempty
  · exact hclean.backup other kept (UnorderedMap.lookup_of_lookup_erase hkept)
  · rcases UnorderedMap.lookup_insert_cases hkept with ⟨rfl, rfl⟩ | ⟨-, hold⟩
    · intro ip hip
      rw [hconfig, mem_ips_safeBackupIps] at hip
      exact hip.2
    · exact hclean.backup other kept hold

end

/-- **Everything a resolver keeps is allowed**, over every history. -/
theorem clean_of_reachable {config : Config} (hprivate : config.allowPrivateAddresses = false)
    {s : Session} (hs : Session.Reachable inet config s) : Clean inet s.st := by
  obtain ⟨httpdnsLookup, clockMs, ops, hrun⟩ := hs
  -- beside the cleanliness, the configuration stays what it was
  refine (hrun.invariant (I := fun s => s.st.config = config ∧ Clean inet s.st) ?_
    ⟨rfl, by simp [Session.init], by simp [Session.init]⟩).2
  rintro s op _ ⟨hconfig, hclean⟩ ⟨-, rfl⟩
  refine ⟨(config_apply inet s op).trans hconfig, ?_⟩
  have hfalse : s.st.config.allowPrivateAddresses = false := by rw [hconfig, hprivate]
  cases op with
  | resolve env host networkEpoch timeoutMs => exact clean_resolveWithMetadata hfalse hclean
  | invalidate host =>
    refine ⟨fun key e he => ?_, fun name addresses hname => ?_⟩
    · simp only [Session.apply, Session.next, invalidate] at he
      split_ifs at he
      · simp at he
      · exact hclean.cache key e (UnorderedMap.lookup_of_lookup_eraseIf he)
    · simp only [Session.apply, Session.next, invalidate] at hname
      split_ifs at hname <;> exact hclean.backup name addresses hname
  | report nowMs order host ip networkEpoch success rttMs =>
    obtain ⟨health, -, hst⟩ :=
      reportConnectionResult_frame nowMs order host ip networkEpoch success rttMs s.st
    simp only [Session.apply, Session.next, hst]
    exact ⟨hclean.cache, hclean.backup⟩
  | qualityChange snapshot => exact ⟨hclean.cache, hclean.backup⟩
  | networkChange networkEpoch => exact ⟨hclean.cache, hclean.backup⟩
  | setHttpdnsLookup httpdnsLookup =>
    exact ⟨by simp [Session.apply, Session.next, setHttpdnsLookup], hclean.backup⟩
  | setBackupIps host addresses => exact clean_setBackupIps hfalse hclean host addresses

/-! ### Tier after tier -/

/-- What a call has is what the tiers asked so far serve. -/
structure Gathered (tiers : List (Via × List Bytes)) (s : Supply) : Prop where
  sound : ∀ ip ∈ ips s.addresses, Serves inet tiers s.via ip
  complete : ∀ via ip, Serves inet tiers via ip → ip ∈ ips s.addresses

section

variable {inet} {env : ResolveEnv} {host : Bytes} {networkEpoch : ℕ} {timeoutMs : ℤ} {st : State}
  {tiers : List (Via × List Bytes)} {tier : Via × List Bytes} {s s' : Supply}

/-- A call without addresses has met idle tiers only. -/
theorem Gathered.idle_iff (h : Gathered inet tiers s) : Idle inet tiers ↔ s.addresses = [] := by
  rw [Dns.idle_iff]
  constructor
  · intro hno
    refine List.eq_nil_iff_forall_not_mem.mpr fun a ha => ?_
    exact hno _ _ (h.sound a.ip (List.mem_map_of_mem ha))
  · intro hnil via ip hserves
    have := h.complete via ip hserves
    rw [hnil] at this
    cases this

/-- The next tier is asked where the call has no addresses, and supplies its allowed ones. -/
theorem Gathered.next (h : Gathered inet tiers s)
    (hkeep : s.addresses ≠ [] → s'.addresses = s.addresses ∧ s'.via = s.via)
    (hask : s.addresses = [] → (s'.addresses ≠ [] → s'.via = tier.1) ∧
      ∀ ip, ip ∈ ips s'.addresses ↔ ip ∈ tier.2 ∧ Allowed inet ip) :
    Gathered inet (tiers ++ [tier]) s' := by
  by_cases hnil : s.addresses = []
  -- nobody has served yet, so the tier is asked
  · obtain ⟨hvia, hmem⟩ := hask hnil
    have hidle := h.idle_iff.mpr hnil
    refine ⟨fun ip hip => ?_, fun via ip hserves => ?_⟩
    · have hne : s'.addresses ≠ [] := by
        rintro hnil'
        rw [hnil'] at hip
        cases hip
      exact serves_append_singleton.mpr (.inr ⟨hidle, hvia hne, (hmem ip).mp hip⟩)
    · rcases serves_append_singleton.mp hserves with hserves | ⟨-, -, hip⟩
      · exact absurd hserves (Dns.idle_iff.mp hidle via ip)
      · exact (hmem ip).mpr hip
  · -- a call that has addresses asks no further
    obtain ⟨haddresses, hvia⟩ := hkeep hnil
    refine ⟨fun ip hip => ?_, fun via ip hserves => ?_⟩
    · rw [haddresses] at hip
      rw [hvia]
      exact serves_append_singleton.mpr (.inl (h.sound ip hip))
    · rcases serves_append_singleton.mp hserves with hserves | ⟨hidle, -⟩
      · rw [haddresses]
        exact h.complete via ip hserves
      · exact absurd (h.idle_iff.mp hidle) hnil

/-- What the cache lookup copies out. -/
theorem readCache_offers (env : ResolveEnv) (host : Bytes) (networkEpoch : ℕ) (st : State) :
    ips (readCache env.cacheNowMs host networkEpoch st).addresses =
        cached env host networkEpoch st (·.expiresAtMs) ∧
      (if (readCache env.cacheNowMs host networkEpoch st).hasStaleEntry = true then
          ips (readCache env.cacheNowMs host networkEpoch st).staleEntry else []) =
        cached env host networkEpoch st (·.staleUntilMs) ∧
      (readCache env.cacheNowMs host networkEpoch st).httpdnsLookup = st.httpdnsLookup := by
  unfold readCache cached
  cases st.cache.lookup (cacheKey host networkEpoch) with
  | none => exact ⟨rfl, rfl, rfl⟩
  | some entry =>
    refine ⟨?_, ?_, rfl⟩
    · dsimp only
      split_ifs <;> rfl
    · simp

/-- An entry that may be used has allowed addresses only. -/
theorem allowed_of_mem_cached (hclean : Clean inet st) {until_ : CacheEntry → ℤ} {ip : Bytes}
    (h : ip ∈ cached env host networkEpoch st until_) : Allowed inet ip := by
  unfold cached at h
  cases hlook : st.cache.lookup (cacheKey host networkEpoch) with
  | none => rw [hlook] at h; cases h
  | some entry =>
    rw [hlook] at h
    dsimp only at h
    split_ifs at h with hnow
    · exact hclean.cache _ entry hlook ip h
    · cases h

/-- What an asked lookup assigns leaves the configuration as it is. -/
theorem answered_frame {α : Type} (lookup : Lookup (List α)) (asked : Bool) (st : State) :
    (answered lookup asked st).2.config = st.config := by
  unfold answered
  split_ifs
  · obtain ⟨⟨n, hst⟩, -⟩ := runBoundedLookup_spec lookup st
    dsimp only
    rw [hst]
  · rfl

theorem askHttpDns_of_ne (hne : s.addresses ≠ []) (lookup : Lookup (List IpResult)) (present : Bool)
    (deadlineMs : ℤ) (online : Bool) : askHttpDns inet lookup present deadlineMs online s = s := by
  simp [askHttpDns, hne]

theorem askLocalDns_of_ne (hne : s.addresses ≠ []) (lookup : Lookup (List AddrInfo)) (deadlineMs : ℤ)
    (online : Bool) : askLocalDns inet lookup deadlineMs online s = s := by
  simp [askLocalDns, hne]

/-- HttpDNS supplies what passes its filter of what it answers. -/
theorem askHttpDns_of_nil (hnil : s.addresses = []) (lookup : Lookup (List IpResult)) (present : Bool)
    (deadlineMs : ℤ) (online : Bool) :
    let asked := present && decide (lookup.nowMs < deadlineMs) && online
    let s' := askHttpDns inet lookup present deadlineMs online s
    s'.addresses = filterHttpDns inet s.st.config.allowPrivateAddresses (answered lookup asked s.st).1 ∧
      s'.st = (answered lookup asked s.st).2 ∧ (s'.addresses ≠ [] → s'.via = .httpDns) := by
  dsimp only
  obtain ⟨⟨n, hst⟩, -⟩ := runBoundedLookup_spec lookup s.st
  unfold askHttpDns answered
  by_cases hasked : (present && decide (lookup.nowMs < deadlineMs) && online) = true
  · rw [if_pos (by simpa [hnil] using hasked), if_pos hasked]
    refine ⟨?_, rfl, fun _ => rfl⟩
    dsimp only
    rw [hnil, hst]
  · rw [if_neg (by simpa [hnil] using hasked), if_neg hasked]
    exact ⟨hnil, rfl, fun hne => absurd hnil hne⟩

/-- LocalDNS supplies what passes its filter of what it answers. -/
theorem askLocalDns_of_nil (hnil : s.addresses = []) (lookup : Lookup (List AddrInfo))
    (deadlineMs : ℤ) (online : Bool) :
    let asked := decide (lookup.nowMs < deadlineMs) && online
    let s' := askLocalDns inet lookup deadlineMs online s
    s'.addresses = resolveLocal inet (answered lookup asked s.st).1 s.st.config.allowPrivateAddresses ∧
      (s'.addresses ≠ [] → s'.via = .localDns) := by
  dsimp only
  obtain ⟨⟨n, hst⟩, -⟩ := runBoundedLookup_spec lookup s.st
  unfold askLocalDns answered
  by_cases hasked : (decide (lookup.nowMs < deadlineMs) && online) = true
  · rw [if_pos (by simpa [hnil] using hasked), if_pos hasked]
    refine ⟨?_, fun _ => rfl⟩
    dsimp only
    rw [hst]
    cases (runBoundedLookup lookup s.st).1 with
    | none => exact hnil
    | some raw => rfl
  · rw [if_neg (by simpa [hnil] using hasked), if_neg hasked]
    exact ⟨hnil, fun hne => absurd hnil hne⟩

/-- The cache is the first tier. -/
theorem gathered_fresh (hclean : Clean inet st) :
    Gathered inet [(.fresh, cached env host networkEpoch st (·.expiresAtMs))]
      { addresses := (readCache env.cacheNowMs host networkEpoch st).addresses, via := .fresh, st } := by
  have hread := (readCache_offers env host networkEpoch st).1
  refine ⟨fun ip hip => ?_, fun via ip hserves => ?_⟩
  · rw [hread] at hip
    exact serves_singleton.mpr ⟨rfl, hip, allowed_of_mem_cached hclean hip⟩
  · rw [hread]
    exact (serves_singleton.mp hserves).2.1

/-- The live tiers are next, one after the other. -/
theorem gathered_live (hconfig : st.config.allowPrivateAddresses = false) (h : Gathered inet tiers s)
    (hst : s.st = st) (httpdns : Lookup (List IpResult)) (localdns : Lookup (List AddrInfo))
    (present : Bool) (deadlineMs : ℤ) (online : Bool) :
    let httpDns := answered httpdns (present && decide (httpdns.nowMs < deadlineMs) && online) st
    let localDns := answered localdns (decide (localdns.nowMs < deadlineMs) && online) httpDns.2
    Gathered inet (tiers ++ [(.httpDns, ips httpDns.1)] ++ [(.localDns, texts inet localDns.1)])
      (askLocalDns inet localdns deadlineMs online
        (askHttpDns inet httpdns present deadlineMs online s)) := by
  dsimp only
  -- HttpDNS comes first, and filters its answers
  have hhttp : Gathered inet (tiers ++ [(.httpDns, ips (answered httpdns
      (present && decide (httpdns.nowMs < deadlineMs) && online) st).1)])
      (askHttpDns inet httpdns present deadlineMs online s) := by
    refine h.next (fun hne => ?_) fun hnil => ?_
    · rw [askHttpDns_of_ne hne]
      exact ⟨rfl, rfl⟩
    · obtain ⟨haddresses, -, hvia⟩ :=
        askHttpDns_of_nil hnil httpdns present deadlineMs online
      refine ⟨hvia, fun ip => ?_⟩
      rw [haddresses, hst, hconfig, mem_ips_filterHttpDns]
  refine hhttp.next (fun hne => ?_) fun hnil => ?_
  · rw [askLocalDns_of_ne hne]
    exact ⟨rfl, rfl⟩
  · -- HttpDNS was of no use, so it was asked before, and left the state LocalDNS starts from
    have hnil' : s.addresses = [] := by
      by_contra hne
      rw [askHttpDns_of_ne hne] at hnil
      exact hne hnil
    obtain ⟨-, hst', -⟩ := askHttpDns_of_nil hnil' httpdns present deadlineMs online
    obtain ⟨haddresses, hvia⟩ := askLocalDns_of_nil hnil localdns deadlineMs online
    refine ⟨hvia, fun ip => ?_⟩
    rw [haddresses, hst', hst, answered_frame, hconfig, mem_ips_resolveLocal]

/-- The backup addresses and the stale entry come last. -/
theorem gathered_fallBack (hclean : Clean inet st) (h : Gathered inet tiers s) :
    Gathered inet (tiers ++ [(.backup, ips ((st.backupIps.lookup host).getD []))] ++
        [(.stale, cached env host networkEpoch st (·.staleUntilMs))])
      (fallBack (readCache env.cacheNowMs host networkEpoch st) s) := by
  -- the backup addresses were checked when they were set
  set read := readCache env.cacheNowMs host networkEpoch st with hread
  have hbackup : Gathered inet (tiers ++ [(.backup, ips ((st.backupIps.lookup host).getD []))])
      (if s.addresses.isEmpty then { s with addresses := read.backupIps, via := .backup } else s) := by
    refine h.next (fun hne => ?_) fun hnil => ?_
    · simp [hne]
    · rw [if_pos (by simp [hnil])]
      refine ⟨fun _ => rfl, fun ip => ?_⟩
      dsimp only
      rw [hread, readCache_backupIps]
      refine ⟨fun hip => ⟨hip, ?_⟩, And.left⟩
      cases hlook : st.backupIps.lookup host with
      | none => rw [hlook] at hip; cases hip
      | some addresses => exact hclean.backup host addresses hlook ip (by simpa [hlook] using hip)
  unfold fallBack
  dsimp only
  generalize (if s.addresses.isEmpty then
    { s with addresses := read.backupIps, via := .backup } else s : Supply) = s' at hbackup ⊢
  refine hbackup.next (fun hne => ?_) fun hnil => ?_
  · simp [hne]
  · have hstale := (readCache_offers env host networkEpoch st).2.1
    rw [← hread] at hstale
    rw [← hstale]
    refine ⟨fun hne => ?_, fun ip => ?_⟩
    -- a stale entry is read only where there is one
    · by_contra hvia
      simp only [hnil, List.isEmpty_nil, Bool.true_and] at hne hvia
      split_ifs at hne hvia with hentry
      · exact hvia rfl
      · exact hne hnil
    -- its addresses are allowed, as everything the cache keeps
    · simp only [hnil, List.isEmpty_nil, Bool.true_and]
      split_ifs with hentry
      · refine ⟨fun hip => ⟨hip, ?_⟩, And.left⟩
        rw [if_pos hentry] at hstale
        have hmem : ip ∈ cached env host networkEpoch st (·.staleUntilMs) := by
          rw [← hstale]
          exact hip
        exact allowed_of_mem_cached hclean hmem
      · simp [hnil, ips]

/-- **The tiers**, one after the other. -/
theorem gathered_gather (hconfig : st.config.allowPrivateAddresses = false) (hclean : Clean inet st) :
    Gathered inet (offersOfName inet env host networkEpoch timeoutMs st)
      (gather inet env timeoutMs (readCache env.cacheNowMs host networkEpoch st) st) := by
  have hpresent := (readCache_offers env host networkEpoch st).2.2
  unfold gather offersOfName
  rw [hpresent]
  exact gathered_fallBack hclean (gathered_live hconfig (gathered_fresh hclean) rfl ..)

/-! ### The result -/

theorem mem_ips_resolveName (hconfig : st.config.allowPrivateAddresses = false)
    (hclean : Clean inet st) (ip : Bytes) :
    let r := (resolveName inet env host networkEpoch timeoutMs st).1
    (ip ∈ ips r.result.addresses → Serves inet (offersOfName inet env host networkEpoch timeoutMs st)
        r.via ip) ∧
      ∀ via, Serves inet (offersOfName inet env host networkEpoch timeoutMs st) via ip →
        ip ∈ ips r.result.addresses := by
  have hgathered : Gathered inet (offersOfName inet env host networkEpoch timeoutMs st)
      (gather inet env timeoutMs (readCache env.cacheNowMs host networkEpoch st) st) :=
    gathered_gather hconfig hclean
  obtain ⟨n, hst⟩ := (supplied_gather inet env timeoutMs
    (readCache env.cacheNowMs host networkEpoch st) st).state
  simp only [resolveName, writeBack, mem_ips_rankAddresses, hst, hconfig, mem_ips_filterFinal]
  exact ⟨fun h => hgathered.sound ip h.1, fun via h => ⟨hgathered.complete via ip h, h.allowed⟩⟩

/-- **The addresses of a result** are exactly the allowed ones of the first tier that has any, which is
the tier the result names. -/
theorem mem_ips_resolveWithMetadata (hconfig : st.config.allowPrivateAddresses = false)
    (hclean : Clean inet st) (ip : Bytes) :
    let r := (resolveWithMetadata inet env host networkEpoch timeoutMs st).1
    (ip ∈ ips r.result.addresses → Serves inet (offers inet env host networkEpoch timeoutMs st)
        r.via ip) ∧
      ∀ via, Serves inet (offers inet env host networkEpoch timeoutMs st) via ip →
        ip ∈ ips r.result.addresses := by
  unfold resolveWithMetadata offers
  dsimp only
  split_ifs with hempty hnum
  · exact ⟨fun hip => absurd hip List.not_mem_nil, fun via hserves => absurd hserves not_serves_nil⟩
  · -- a literal is its own address, if it is allowed
    have hsafe := isSafeIp_isSome_iff inet host
    simp only [serves_singleton, hconfig, List.mem_singleton]
    cases hkeep : isSafeIp inet host false with
    | none =>
      have hno : ¬ Allowed inet host := by rw [← hsafe, hkeep]; simp
      refine ⟨fun hip => absurd hip List.not_mem_nil, ?_⟩
      rintro via ⟨-, rfl, hallowed⟩
      exact absurd hallowed hno
    | some ipv6 =>
      have hyes : Allowed inet host := by rw [← hsafe, hkeep]; simp
      refine ⟨fun hip => ?_, ?_⟩
      · obtain rfl : ip = host := by simpa [ips] using hip
        exact ⟨rfl, rfl, hyes⟩
      · rintro via ⟨-, rfl, -⟩
        simp [ips]
  · exact mem_ips_resolveName hconfig hclean ip

/-- The same in every session. -/
theorem mem_ips_of_reachable {config : Config} (hprivate : config.allowPrivateAddresses = false)
    {s : Session} (hs : Session.Reachable inet config s) (env : ResolveEnv) (host : Bytes)
    (networkEpoch : ℕ) (timeoutMs : ℤ) (ip : Bytes) :
    let r := (resolveWithMetadata inet env host networkEpoch timeoutMs s.st).1
    (ip ∈ ips r.result.addresses →
        Serves inet (offers inet env host networkEpoch timeoutMs s.st) r.via ip) ∧
      ∀ via, Serves inet (offers inet env host networkEpoch timeoutMs s.st) via ip →
        ip ∈ ips r.result.addresses :=
  mem_ips_resolveWithMetadata (by rw [config_of_reachable hs, hprivate])
    (clean_of_reachable inet hprivate hs) ip

/-- What is found is the entry of the call from then on. -/
theorem lookup_resolveWithMetadata (hempty : host.isEmpty = false) (hnum : isNumericIp inet host = none)
    (hne : (resolveWithMetadata inet env host networkEpoch timeoutMs st).1.result.addresses ≠ []) :
    ((resolveWithMetadata inet env host networkEpoch timeoutMs st).2.cache.lookup
        (cacheKey host networkEpoch)).map (·.addresses) =
      some (resolveWithMetadata inet env host networkEpoch timeoutMs st).1.result.addresses := by
  have hname : resolveWithMetadata inet env host networkEpoch timeoutMs st =
      resolveName inet env host networkEpoch timeoutMs st := by
    simp [resolveWithMetadata, hempty, hnum]
  rw [hname] at hne ⊢
  unfold resolveName writeBack at hne ⊢
  dsimp only at hne ⊢
  rw [storeEntry, if_neg (by simpa using hne), AList.lookup_insert]
  rfl

end

end AsterNet.Dns
