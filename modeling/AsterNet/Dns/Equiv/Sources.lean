import AsterNet.Dns.Equiv.Threads
import AsterNet.Dns.PlainInet

/-!
# Answers come from their own host and network

* `sourced_of_run`: every address a concurrent call returns is its literal host, was given by a lookup for
  its host under its epoch, or was configured for its host.

The invariant (`Inv`) says more: the origin that is kept for a list of addresses is that of each address
in it (`Origin.Gives`).  A cache key determines host and epoch (`cacheKey_inj`), so an entry is never
read for others than it was written for.
-/

namespace AsterNet.Dns

namespace Threads

/-- `set_backup_ips` has configured the address for the host, and nothing else since. -/
def Configured (h : List Event) (host ip : Bytes) : Prop :=
  ∃ (k : ℕ) (addresses : List IpResult), h[k]? = some (.configured host addresses) ∧ ip ∈ ips addresses ∧
    ∀ (j : ℕ) (later : List IpResult), k < j → h[j]? ≠ some (.configured host later)

/-- The address is what the origin says: the answer given there by a lookup for this host and epoch, or an
address that was configured for the host at the time. -/
def Origin.Gives (o : Origin) (h : List Event) (host : Bytes) (networkEpoch : ℕ) (ip : Bytes) : Prop :=
  match o.via with
  | .httpDns => ∃ addresses,
      h[o.obtainedAt]? = some (.answered .httpDns host networkEpoch addresses) ∧ ip ∈ ips addresses
  | .localDns => ∃ addresses,
      h[o.obtainedAt]? = some (.answered .localDns host networkEpoch addresses) ∧ ip ∈ ips addresses
  | .backup => o.obtainedAt ≤ h.length ∧ Configured (h.take o.obtainedAt) host ip
  | _ => False

/-- A lookup for this host and epoch gave the address, or it was configured for this host. -/
def Sourced (h : List Event) (host : Bytes) (networkEpoch : ℕ) (ip : Bytes) : Prop :=
  (∃ tier addresses, .answered tier host networkEpoch addresses ∈ h ∧ ip ∈ ips addresses) ∨
    ∃ addresses, .configured host addresses ∈ h ∧ ip ∈ ips addresses

section

variable {o : Origin} {h es : List Event} {host ip : Bytes} {networkEpoch : ℕ}

theorem getElem?_append_of_some {k : ℕ} {e : Event} (hk : h[k]? = some e) : (h ++ es)[k]? = some e := by
  rw [List.getElem?_append_left (List.getElem?_eq_some_iff.mp hk).1]
  exact hk

theorem getElem?_append_singleton (e : Event) : (h ++ [e])[h.length]? = some e := by
  rw [List.getElem?_append_right le_rfl, Nat.sub_self]
  rfl

/-- What an origin gives stays. -/
theorem Origin.Gives.append (hgives : o.Gives h host networkEpoch ip) (es : List Event) :
    o.Gives (h ++ es) host networkEpoch ip := by
  unfold Gives at hgives ⊢
  split
  · case h_1 hvia =>
    rw [hvia] at hgives
    obtain ⟨addresses, hk, hip⟩ := hgives
    exact ⟨addresses, getElem?_append_of_some hk, hip⟩
  · case h_2 hvia =>
    rw [hvia] at hgives
    obtain ⟨addresses, hk, hip⟩ := hgives
    exact ⟨addresses, getElem?_append_of_some hk, hip⟩
  · case h_3 hvia =>
    rw [hvia] at hgives
    refine ⟨hgives.1.trans (by simp), ?_⟩
    rw [List.take_append_of_le_length hgives.1]
    exact hgives.2
  · case h_4 h₁ h₂ h₃ =>
    split at hgives
    · case h_1 hvia => exact absurd hvia h₁
    · case h_2 hvia => exact absurd hvia h₂
    · case h_3 hvia => exact absurd hvia h₃
    · exact hgives

theorem Origin.Gives.sourced (hgives : o.Gives h host networkEpoch ip) :
    Sourced h host networkEpoch ip := by
  unfold Gives at hgives
  split at hgives
  · obtain ⟨addresses, hk, hip⟩ := hgives
    exact .inl ⟨_, addresses, List.mem_of_getElem? hk, hip⟩
  · obtain ⟨addresses, hk, hip⟩ := hgives
    exact .inl ⟨_, addresses, List.mem_of_getElem? hk, hip⟩
  · obtain ⟨-, k, addresses, hk, hip, -⟩ := hgives
    exact .inr ⟨addresses, List.mem_of_mem_take (List.mem_of_getElem? hk), hip⟩
  · exact hgives.elim

/-- A configured address stays until the host is configured again. -/
theorem Configured.append (hconf : Configured h host ip)
    (hno : ∀ later, .configured host later ∉ es) : Configured (h ++ es) host ip := by
  obtain ⟨k, addresses, hk, hip, hlast⟩ := hconf
  refine ⟨k, addresses, getElem?_append_of_some hk, hip, fun j later hj hsome => ?_⟩
  rcases Nat.lt_or_ge j h.length with hlt | hge
  · rw [List.getElem?_append_left hlt] at hsome
    exact hlast j later hj hsome
  · rw [List.getElem?_append_right hge] at hsome
    exact hno later (List.mem_of_getElem? hsome)

theorem configured_append_singleton {addresses : List IpResult} (hip : ip ∈ ips addresses) :
    Configured (h ++ [.configured host addresses]) host ip := by
  refine ⟨h.length, addresses, getElem?_append_singleton _, hip, fun j later hj hsome => ?_⟩
  have hlt := (List.getElem?_eq_some_iff.mp hsome).1
  rw [List.length_append, List.length_singleton] at hlt
  omega

/-- What is configured now is what a call copies now. -/
theorem Configured.gives (hconf : Configured h host ip) :
    Origin.Gives ⟨.backup, h.length, h.length⟩ h host networkEpoch ip := by
  refine ⟨le_rfl, ?_⟩
  rw [List.take_length]
  exact hconf

end

/-! ### The invariant -/

/-- The addresses a call has are those of their origins. -/
structure Call.Given (c : Call) (h : List Event) : Prop where
  addresses : ∀ ip ∈ ips c.addresses, c.origin.Gives h c.host c.networkEpoch ip
  stale : ∀ ip ∈ ips c.read.staleEntry, c.cached.Gives h c.host c.networkEpoch ip
  backup : ∀ ip ∈ ips c.read.backupIps,
    Origin.Gives ⟨.backup, c.readAt, c.readAt⟩ h c.host c.networkEpoch ip

/-- A returned address is the literal host or that of its origin. -/
def GivesReturned (inet : Inet) (before : List Event) : Event → Prop
  | .returned c result => ∀ ip ∈ ips result.addresses,
      (isNumericIp inet c.host).isSome ∧ ip = c.host ∨ c.origin.Gives before c.host c.networkEpoch ip
  | _ => True

/-- What holds of every machine that was reached, with what happened. -/
structure Inv (inet : Inet) {ι : Type} (s : Trace ι) : Prop where
  cache : ∀ host networkEpoch e, s.1.st.cache.lookup (cacheKey host networkEpoch) = some e →
    ∀ ip ∈ ips e.addresses, (s.1.origins (cacheKey host networkEpoch)).Gives s.2 host networkEpoch ip
  backup : ∀ host l, s.1.st.backupIps.lookup host = some l → ∀ ip ∈ ips l, Configured s.2 host ip
  calls : ∀ t stage c, s.1.calls t = some (stage, c) → c.Given s.2
  returned : Transition.Justified (GivesReturned inet) s.2

variable {ι : Type} [DecidableEq ι] {inet : Inet} {m m' : Machine ι} {h es : List Event} {c : Call}

theorem Call.Given.append (hc : c.Given h) (es : List Event) : c.Given (h ++ es) where
  addresses ip hip := (hc.addresses ip hip).append es
  stale ip hip := (hc.stale ip hip).append es
  backup ip hip := (hc.backup ip hip).append es

theorem Call.Given.settle (hc : c.Given h) (st : State) : (c.settle inet st).Given h where
  addresses ip hip := by
    have haddresses := hc.addresses
    unfold Call.origin at haddresses ⊢
    rcases settle_cases c st hip with ⟨hvia, hmem⟩ | ⟨hvia, hmem⟩ | ⟨hvia, hmem⟩
    · rw [hvia]
      exact haddresses ip hmem
    · rw [hvia]
      exact hc.backup ip hmem
    · rw [hvia]
      exact hc.stale ip hmem
  stale := hc.stale
  backup := hc.backup

theorem Call.Given.leave (hc : c.Given h) (inet : Inet) (st : State) (tier : Tier) (passage : Passage) :
    (c.leave inet st tier passage).2.Given h := by
  cases tier with
  | httpDns => exact ⟨hc.addresses, hc.stale, hc.backup⟩
  | localDns =>
    refine Call.Given.settle ?_ st
    exact ⟨hc.addresses, hc.stale, hc.backup⟩

/-- An answer gives a call what it says. -/
theorem Call.Given.serve (hc : c.Given h) {via : Via} {addresses : List IpResult} {answeredAt : ℕ}
    (hgives : ∀ ip ∈ ips addresses,
      (c.serve via addresses answeredAt).origin.Gives h c.host c.networkEpoch ip) :
    (c.serve via addresses answeredAt).Given h :=
  ⟨hgives, hc.stale, hc.backup⟩

omit [DecidableEq ι] in
/-- The cache lookup gives a call what it says. -/
theorem given_look (hinv : Inv inet (m, h)) (nowMs : ℤ) {read : CacheRead}
    (hread : read = readCache nowMs c.host c.networkEpoch m.st) (deadlineMs : ℤ) :
    { c with
      read
      addresses := read.addresses
      via := .fresh
      deadlineMs
      readAt := h.length
      cached := m.cachedOrigin h (cacheKey c.host c.networkEpoch) }.Given h := by
  -- a stale address comes from the entry that is cached now
  have hstale : ∀ ip ∈ ips read.staleEntry,
      (m.cachedOrigin h (cacheKey c.host c.networkEpoch)).Gives h c.host c.networkEpoch ip := by
    intro ip hip
    rw [hread] at hip
    obtain ⟨e, hlook, hmem⟩ := exists_entry_of_mem_staleEntry hip
    rw [Machine.cachedOrigin, if_pos (AList.lookup_isSome.mp (by rw [hlook]; rfl))]
    exact hinv.cache _ _ e hlook ip hmem
  -- a fresh entry is the same entry; the backup list is what was configured
  refine ⟨fun ip hip => ?_, hstale, fun ip hip => ?_⟩
  · rcases readCache_addresses nowMs c.host c.networkEpoch m.st with hnil | heq
    · rw [hread, hnil] at hip
      cases hip
    · rw [hread, heq, ← hread] at hip
      exact hstale ip hip
  · rw [hread, readCache_backupIps] at hip
    cases hlook : m.st.backupIps.lookup c.host with
    | none =>
      rw [hlook] at hip
      cases hip
    | some l =>
      rw [hlook] at hip
      exact (hinv.backup _ l hlook ip hip).gives

omit [DecidableEq ι] in
/-- A step that configures nothing and leaves only entries that were there. -/
theorem inv_of_subset (hinv : Inv inet (m, h)) (hcache : ∀ key e, m'.st.cache.lookup key = some e →
      m.st.cache.lookup key = some e ∧ m'.origins key = m.origins key)
    (hbackup : m'.st.backupIps = m.st.backupIps) (hno : ∀ host later, .configured host later ∉ es)
    (hcalls : ∀ t stage c, m'.calls t = some (stage, c) → c.Given (h ++ es))
    (hreturned : Transition.Justified (GivesReturned inet) (h ++ es)) : Inv inet (m', h ++ es) where
  cache host networkEpoch e he ip hip := by
    obtain ⟨hold, horigin⟩ := hcache _ e he
    rw [horigin]
    exact (hinv.cache host networkEpoch e hold ip hip).append es
  backup host l hl ip hip := by
    rw [hbackup] at hl
    exact (hinv.backup host l hl ip hip).append (hno host)
  calls := hcalls
  returned := hreturned

/-- A step of a call that touches neither the cache nor the configuration, and after which the call has
what it says. -/
theorem inv_goto (hinv : Inv inet (m, h)) {m₁ : Machine ι} (hsame : m₁.SameData m) {t : ι} {stage : Stage}
    (hc : c.Given h) : Inv inet (m₁.goto t (some (stage, c)), h) := by
  have hcalls : ∀ u stage' c', (m₁.goto t (some (stage, c))).calls u = some (stage', c') → c'.Given h := by
    refine Machine.forall_calls_goto (P := fun _ c' => c'.Given h) ?_ ?_
    · rw [hsame.calls]
      exact hinv.calls
    · intro stage' c' heq
      cases heq
      exact hc
  have hnil : h = h ++ [] := (List.append_nil h).symm
  rw [hnil] at hcalls ⊢
  refine inv_of_subset hinv (fun key e he => ?_) hsame.backupIps (by simp) hcalls (hnil ▸ hinv.returned)
  rw [Machine.goto_st, hsame.cache] at he
  exact ⟨he, by rw [Machine.goto_origins, hsame.origins]⟩

/-- A lookup that answers a call. -/
theorem inv_answered (hinv : Inv inet (m, h)) {m₁ : Machine ι} (hsame : m₁.SameData m) {t : ι}
    {stage : Stage} {tier : Tier} {host : Bytes} {networkEpoch : ℕ} {addresses : List IpResult}
    (hc : c.Given (h ++ [.answered tier host networkEpoch addresses])) :
    Inv inet (m₁.goto t (some (stage, c)), h ++ [.answered tier host networkEpoch addresses]) := by
  refine inv_of_subset hinv (fun key e he => ?_) hsame.backupIps (by simp) ?_ ?_
  · rw [Machine.goto_st, hsame.cache] at he
    exact ⟨he, by rw [Machine.goto_origins, hsame.origins]⟩
  · refine Machine.forall_calls_goto (P := fun _ c' => c'.Given _) ?_ ?_
    · intro u stage' c' hu
      rw [hsame.calls] at hu
      exact (hinv.calls u stage' c' hu).append _
    · intro stage' c' heq
      cases heq
      exact hc
  · exact Transition.justified_append_singleton_iff.mpr ⟨hinv.returned, trivial⟩

/-- **Every section keeps the invariant.** -/
theorem inv_of_stepped (hinv : Inv inet (m, h)) {a : Act ι} (hs : Stepped inet m h a m' es) :
    Inv inet (m', h ++ es) := by
  have hrefl : m.SameData m := ⟨rfl, rfl, rfl, rfl, rfl⟩
  -- what a call was given stays given as the history grows
  have hold : ∀ u stage c, m.calls u = some (stage, c) → c.Given (h ++ es) :=
    fun u stage c hu => (hinv.calls u stage c hu).append es
  cases hs with
  | answered host networkEpoch timeoutMs startedMs elapsedMs result hresult =>
    refine inv_of_subset hinv (fun key e he => ⟨he, rfl⟩) rfl (by simp) hold ?_
    -- an immediate answer is the host itself, when it is numeric
    refine Transition.justified_append_singleton_iff.mpr ⟨hinv.returned, fun ip hip => .inl ?_⟩
    unfold immediate at hresult
    split_ifs at hresult with hempty hnumeric
    · cases hresult
      cases hip
    · split at hresult
      · cases hresult
        cases hip
      · cases hresult
        exact ⟨hnumeric, List.mem_singleton.mp hip⟩
  | began t host networkEpoch timeoutMs startedMs =>
    rw [List.append_nil]
    refine inv_goto hinv hrefl ⟨?_, ?_, ?_⟩
    · intro ip hip
      cases hip
    · intro ip hip
      cases hip
    · intro ip hip
      cases hip
  | looked t c nowMs hcall =>
    rw [List.append_nil]
    exact inv_goto hinv hrefl (given_look hinv nowMs rfl _)
  | qualityRead t c hcall =>
    rw [List.append_nil]
    have hc := hinv.calls t _ c hcall
    exact inv_goto hinv hrefl ⟨hc.addresses, hc.stale, hc.backup⟩
  | taken t tier c hcall hnone =>
    rw [List.append_nil]
    have hsame : (m.withState { m.st with activeLookups := m.st.activeLookups + 1 }).SameData m :=
      ⟨rfl, rfl, rfl, rfl, rfl⟩
    exact inv_goto hinv hsame (hinv.calls t _ c hcall)
  | created t tier c hcall =>
    rw [List.append_nil]
    exact inv_goto hinv hrefl (hinv.calls t _ c hcall)
  | left t tier c stage passage m₁ hcall hunserved hsame =>
    rw [List.append_nil]
    exact inv_goto hinv hsame ((hinv.calls t _ c hcall).leave inet m.st tier passage)
  | servedHttpDns t c addresses hcall =>
    have hsame : ({ m with answered := m.answered + 1 } : Machine ι).SameData m :=
      ⟨rfl, rfl, rfl, rfl, rfl⟩
    have hserved : (c.serve .httpDns (filterHttpDns inet m.st.config.allowPrivateAddresses addresses)
        h.length).Given (h ++ [.answered .httpDns c.host c.networkEpoch addresses]) :=
      (hold t _ c hcall).serve fun ip hip =>
        ⟨addresses, getElem?_append_singleton _, mem_ips_of_mem_ips_filterHttpDns inet hip⟩
    exact inv_answered hinv hsame (hserved.leave inet m.st .httpDns _)
  | servedLocalDns t c raw hcall =>
    have hsame : ({ m with answered := m.answered + 1 } : Machine ι).SameData m :=
      ⟨rfl, rfl, rfl, rfl, rfl⟩
    have hserved : (c.serve .localDns (resolveLocal inet raw m.st.config.allowPrivateAddresses)
        h.length).Given (h ++ [.answered .localDns c.host c.networkEpoch
          (resolveLocal inet raw m.st.config.allowPrivateAddresses)]) :=
      (hold t _ c hcall).serve fun ip hip => ⟨_, getElem?_append_singleton _, hip⟩
    exact inv_answered hinv hsame (hserved.leave inet m.st .localDns _)
  | background m₁ hsame =>
    refine inv_of_subset hinv (fun key e he => ?_) hsame.backupIps (by simp) ?_ ?_
    · rw [hsame.cache] at he
      exact ⟨he, by rw [hsame.origins]⟩
    · rw [hsame.calls]
      exact hold
    · rw [List.append_nil]
      exact hinv.returned
  -- the entry that is written gets the origin of the call that writes it
  | wrote t c nowMs evict hact hcall =>
    have hc := hold t _ c hcall
    refine ⟨fun host networkEpoch e he ip hip => ?_, ?_, ?_, ?_⟩
    · rcases lookup_write he with ⟨hkey, -, horigin, hips⟩ | ⟨hlook, horigin⟩
      · obtain ⟨rfl, rfl⟩ := cacheKey_inj.mp hkey
        rw [horigin]
        exact hc.addresses ip (hips ip hip)
      · rw [horigin]
        exact (hinv.cache host networkEpoch e hlook ip hip).append []
    · intro host l hl
      have hframe := (storeEntry_frame nowMs evict (cacheKey c.host c.networkEpoch)
        (rankAddresses c.host c.networkEpoch m.st c.addresses) m.st).2
      rw [List.append_nil]
      exact hinv.backup host l (hframe ▸ hl)
    -- ranking changes the order of the addresses, and nothing of where they come from
    · refine Machine.forall_calls_goto (P := fun _ c' => c'.Given _) hold ?_
      intro stage' c' heq
      cases heq
      exact ⟨fun ip hip => hc.addresses ip (mem_ips_rankAddresses.mp hip), hc.stale, hc.backup⟩
    · rw [List.append_nil]
      exact hinv.returned
  | finished t c nowMs hcall =>
    refine inv_of_subset hinv (fun key e he => ⟨he, rfl⟩) rfl (by simp) ?_ ?_
    · refine Machine.forall_calls_goto (P := fun _ c' => c'.Given _) hold ?_
      intro stage' c' heq
      cases heq
    · refine Transition.justified_append_singleton_iff.mpr ⟨hinv.returned, fun ip hip => .inr ?_⟩
      exact (hinv.calls t _ c hcall).addresses ip hip
  | invalidated host =>
    refine inv_of_subset hinv (fun key e he => ⟨?_, rfl⟩) ?_ (by simp) hold
      (Transition.justified_append_singleton_iff.mpr ⟨hinv.returned, trivial⟩)
    · rw [Machine.withState_st, invalidate] at he
      split_ifs at he
      · simp at he
      · exact UnorderedMap.lookup_of_lookup_eraseIf he
    · rw [Machine.withState_st, invalidate]
      split_ifs <;> rfl
  | replaced httpdnsLookup =>
    refine inv_of_subset hinv (fun key e he => ?_) rfl (by simp) hold
      (Transition.justified_append_singleton_iff.mpr ⟨hinv.returned, trivial⟩)
    simp [setHttpdnsLookup] at he
  | configured host addresses =>
    refine ⟨fun host' networkEpoch e he ip hip => ?_, fun host' l hl ip hip => ?_, hold,
      Transition.justified_append_singleton_iff.mpr ⟨hinv.returned, trivial⟩⟩
    · exact (hinv.cache host' networkEpoch e (UnorderedMap.lookup_of_lookup_eraseIf he) ip hip).append _
    · -- the list of the host itself is the new one
      have hother : ∀ l', m.st.backupIps.lookup host' = some l' → host' ≠ host → ip ∈ ips l' →
          Configured (h ++ [.configured host addresses]) host' ip := by
        intro l' hl' hne hip'
        refine (hinv.backup host' l' hl' ip hip').append fun later hmem => hne ?_
        rw [List.mem_singleton, Event.configured.injEq] at hmem
        exact hmem.1
      rw [Machine.withState_st, setBackupIps] at hl
      dsimp only at hl
      split_ifs at hl with hempty
      · rcases eq_or_ne host' host with rfl | hne
        · rw [AList.lookup_erase] at hl
          cases hl
        · exact hother l (UnorderedMap.lookup_of_lookup_erase hl) hne hip
      · rcases UnorderedMap.lookup_insert_cases hl with ⟨rfl, rfl⟩ | ⟨hne, hold'⟩
        · exact configured_append_singleton (mem_ips_of_mem_ips_safeBackupIps inet hip)
        · exact hother l hold' hne hip

omit [DecidableEq ι] in
theorem inv_init (config : Config) (httpdnsLookup : Bool) : Inv inet (init ι config httpdnsLookup) where
  cache := by simp [init]
  backup := by simp [init]
  calls := by simp [init]
  returned := Transition.justified_nil

theorem inv_of_run {config : Config} {httpdnsLookup : Bool} {acts : List (Act ι)} {s : Trace ι}
    (hrun : Transition.Run (Steps inet) (init ι config httpdnsLookup) acts s) : Inv inet s := by
  refine hrun.invariant ?_ (inv_init config httpdnsLookup)
  intro s a s' hinv hs
  obtain ⟨es, hstepped, heq⟩ := hs.stepped
  have hnext := inv_of_stepped hinv hstepped
  rw [← heq] at hnext
  exact hnext

/-- **Answers come from their own host and network.** -/
theorem sourced_of_run {config : Config} {httpdnsLookup : Bool} {acts : List (Act ι)} {s : Trace ι}
    (hrun : Transition.Run (Steps inet) (init ι config httpdnsLookup) acts s) {before after : List Event}
    {call : Call} {result : ResolveResult} (hreturned : s.2 = before ++ .returned call result :: after) :
    ∀ a ∈ result.addresses, (isNumericIp inet call.host).isSome ∧ a.ip = call.host ∨
      Sourced before call.host call.networkEpoch a.ip := by
  intro a ha
  have hgives := (inv_of_run hrun).returned before _ after hreturned
  rcases hgives a.ip (List.mem_map_of_mem ha) with hliteral | hgives
  · exact .inl hliteral
  · exact .inr hgives.sourced

/-! ### One host on several threads -/

/-- The resolver with an HttpDNS function, as constructed. -/
def start : Trace ℕ := init ℕ {} true

/-- The host of the runs. -/
def hostA : Bytes := ByteString.ascii "a"

/-- A call for the host by a thread, up to its cache lookup and the reading of the quality. -/
def begins (t : ℕ) : List (Act ℕ) := [.begin t hostA 1 0 0 0, .look t 0, .readQuality t]

/-- The HttpDNS function gives this address to the call. -/
def serves (t : ℕ) (ip : String) : List (Act ℕ) :=
  [.gate t 0, .create t true, .answerHttpDns t [{ ip := ByteString.ascii ip }], .gate t 0]

/-- The write back and the return. -/
def ends (t : ℕ) : List (Act ℕ) := [.write t 0 0, .finish t 0]

/-- The state after some steps. -/
def after (acts : List (Act ℕ)) : Trace ℕ := (acts.foldlM (next Inet.plain) start).getD start

theorem run_after {acts : List (Act ℕ)} (hsome : (acts.foldlM (next Inet.plain) start).isSome = true) :
    Transition.Run (Steps Inet.plain) start acts (after acts) :=
  Transition.Run.of_isSome_foldlM hsome

/-- What was returned last. -/
def lastReturned (h : List Event) : Option (Call × ResolveResult) :=
  match h.getLast? with
  | some (.returned call result) => some (call, result)
  | _ => none

theorem eq_of_lastReturned {h : List Event} {call : Call} {result : ResolveResult}
    (hlast : lastReturned h = some (call, result)) : h = h.dropLast ++ .returned call result :: [] := by
  unfold lastReturned at hlast
  split at hlast
  · case h_1 call' result' hget =>
    cases hlast
    exact (List.dropLast_append_getLast? _ hget).symm
  · cases hlast

/-- One call is served by HttpDNS, the next one by the cache. -/
def served : List (Act ℕ) :=
  begins 0 ++ serves 0 "192.0.2.1" ++ ends 0 ++ (begins 1 ++ [.gate 1 0, .gate 1 0] ++ ends 1)

theorem sourced_of_run_served : ∃ call result,
    lastReturned (after served).2 = some (call, result) ∧ result.cacheHit = true ∧
      ips result.addresses = [ByteString.ascii "192.0.2.1"] ∧
      ∀ a ∈ result.addresses, (isNumericIp Inet.plain call.host).isSome ∧ a.ip = call.host ∨
        Sourced (after served).2.dropLast call.host call.networkEpoch a.ip := by
  obtain ⟨⟨call, result⟩, hlast⟩ := Option.isSome_iff_exists.mp
    (show (lastReturned (after served).2).isSome = true by decide +kernel)
  have hhit : ∀ r ∈ lastReturned (after served).2, r.2.cacheHit = true ∧
      ips r.2.addresses = [ByteString.ascii "192.0.2.1"] := by decide +kernel
  obtain ⟨hcached, hips⟩ := hhit _ hlast
  exact ⟨call, result, hlast, hcached, hips,
    sourced_of_run (run_after (by decide +kernel)) (eq_of_lastReturned hlast)⟩

end Threads

end AsterNet.Dns
