import AsterNet.Dns.Equiv.Resolve
import AsterNet.Dns.PlainInet

/-!
# How old a cached address can be

The write back of `resolve_with_metadata` stamps the entry anew from the current time, also when its
addresses were read from the cache.  `Fresh` says of a resolution that its cached addresses are no
older than the two lifetimes of the configuration allow.  It fails after enough cache hits
(`exists_run_not_fresh`), and holds as long as no call finds an entry that a cache hit has carried
from one phase of its life into another (`fresh_of_stepsMeet`).

The invariant (`Inv`) ties each entry to the newest write of its key and each live address in it to
the newest live lookup of that key.
-/

namespace AsterNet.Dns

/-- `l` is a live lookup for the host and epoch of `r` that produced the address `a`. -/
structure Produced (l r : Resolution) (a : IpResult) : Prop where
  host : l.host = r.host
  networkEpoch : l.networkEpoch = r.networkEpoch
  live : l.via.IsLive
  address : ∃ b ∈ l.result.addresses, b.ip = a.ip ∧ b.source = a.source

/-- Each HttpDNS or LocalDNS address of a cache hit was produced by an earlier live lookup for the
same host and epoch that is recent enough. -/
def FreshAfter (config : Config) (history : List Resolution) (r : Resolution) : Prop :=
  r.result.cacheHit = true → ∀ a ∈ r.result.addresses, a.source.IsLive →
    ∃ l ∈ history, Produced l r a ∧
      (r.via = .fresh → r.readAtMs ≤ l.writtenAtMs + config.ttlMs) ∧
      (r.via = .stale → r.readAtMs ≤ l.writtenAtMs + config.ttlMs + config.staleTtlMs)

/-- Every resolution of a history (newest first) is fresh after the older ones. -/
def Fresh (config : Config) : List Resolution → Prop
  | [] => True
  | r :: history => FreshAfter config history r ∧ Fresh config history

/-! ### The newest write and the newest live lookup of a key -/

/-- The call wrote the entry of this key. -/
def Resolution.Wrote (r : Resolution) (host : Bytes) (networkEpoch : ℕ) : Prop :=
  r.host = host ∧ r.networkEpoch = networkEpoch ∧ r.via ≠ .literal ∧ r.result.addresses ≠ []

instance (r : Resolution) (host : Bytes) (networkEpoch : ℕ) :
    Decidable (r.Wrote host networkEpoch) :=
  inferInstanceAs (Decidable (_ ∧ _ ∧ _ ∧ _))

/-- The newest write of the key. -/
def lastWrite (history : List Resolution) (host : Bytes) (networkEpoch : ℕ) : Option Resolution :=
  history.find? fun r => decide (r.Wrote host networkEpoch)

/-- The newest live lookup of the key. -/
def lastLive (history : List Resolution) (host : Bytes) (networkEpoch : ℕ) : Option Resolution :=
  history.find? fun r => decide (r.Wrote host networkEpoch ∧ r.via.IsLive)

/-- The newest write of the key was a cache hit's. -/
def Restamped (history : List Resolution) (host : Bytes) (networkEpoch : ℕ) : Prop :=
  ∃ w ∈ lastWrite history host networkEpoch, w.via.IsCache

/-- A re-stamped entry is met in the phase (fresh, stale or expired) in which the stamp of its live
lookup would put it. -/
def SamePhase (s : Session) (nowMs : ℤ) (host : Bytes) (networkEpoch : ℕ) : Prop :=
  ∀ entry ∈ s.st.cache.lookup (cacheKey host networkEpoch),
    ∀ l ∈ lastLive s.history host networkEpoch, Restamped s.history host networkEpoch →
      (nowMs ≤ entry.expiresAtMs → nowMs ≤ l.writtenAtMs + s.st.config.ttlMs) ∧
      (nowMs ≤ entry.staleUntilMs →
        nowMs ≤ l.writtenAtMs + s.st.config.ttlMs + s.st.config.staleTtlMs)

/-- The condition on a step: a resolve does not find its entry revived by a re-stamp. -/
def NotRevived (s : Session) : Op → Prop
  | .resolve env host networkEpoch _ => SamePhase s env.cacheNowMs host networkEpoch
  | _ => True

variable {history : List Resolution} {r : Resolution} {host : Bytes} {networkEpoch : ℕ}

theorem lastWrite_cons_of_not (h : ¬ r.Wrote host networkEpoch) :
    lastWrite (r :: history) host networkEpoch = lastWrite history host networkEpoch := by
  simp [lastWrite, h]

theorem lastLive_cons_of_not (h : ¬ (r.Wrote host networkEpoch ∧ r.via.IsLive)) :
    lastLive (r :: history) host networkEpoch = lastLive history host networkEpoch := by
  unfold lastLive
  rw [List.find?_cons_of_neg (by simpa using h)]

theorem lastLive_cons_of (h : r.Wrote host networkEpoch) (hlive : r.via.IsLive) :
    lastLive (r :: history) host networkEpoch = some r := by
  simp [lastLive, h, hlive]

theorem restamped_cons_iff_of (h : r.Wrote host networkEpoch) :
    Restamped (r :: history) host networkEpoch ↔ r.via.IsCache := by
  simp [Restamped, lastWrite, h]

theorem restamped_cons_iff_of_not (h : ¬ r.Wrote host networkEpoch) :
    Restamped (r :: history) host networkEpoch ↔ Restamped history host networkEpoch := by
  rw [Restamped, lastWrite_cons_of_not h, Restamped]

theorem produced_of_lastLive {l : Resolution} (h : lastLive history host networkEpoch = some l) :
    l ∈ history ∧ l.host = host ∧ l.networkEpoch = networkEpoch ∧ l.via.IsLive := by
  have hp := List.find?_some h
  simp only [decide_eq_true_eq] at hp
  exact ⟨List.mem_of_find?_eq_some h, hp.1.1, hp.1.2.1, hp.2⟩

/-! ### The invariant -/

/-- What holds of a session whose steps were `NotRevived`. -/
structure Inv (config : Config) (s : Session) : Prop where
  sameConfig : s.st.config = config
  backup : ∀ host l, s.st.backupIps.lookup host = some l → ∀ a ∈ l, ¬ a.source.IsLive
  nonempty : ∀ host networkEpoch e,
    s.st.cache.lookup (cacheKey host networkEpoch) = some e → e.addresses ≠ []
  /-- The live addresses of an entry are those of the newest live lookup of its key, whose stamp the
  entry still has unless a cache hit has re-stamped it. -/
  live : ∀ host networkEpoch e, s.st.cache.lookup (cacheKey host networkEpoch) = some e →
    ∀ a ∈ e.addresses, a.source.IsLive → ∃ l, lastLive s.history host networkEpoch = some l ∧
      (∃ b ∈ l.result.addresses, b.ip = a.ip ∧ b.source = a.source) ∧
      (¬ Restamped s.history host networkEpoch →
        e.expiresAtMs = l.writtenAtMs + config.ttlMs ∧
        e.staleUntilMs = l.writtenAtMs + config.ttlMs + config.staleTtlMs)
  fresh : Fresh config s.history

section Step

variable {config : Config} {inet : Inet} {env : ResolveEnv} {s : Session} {r : Resolution}
  {st' : State}

theorem not_isLive_of_mem_safeBackupIps {allow : Bool} {addresses : List IpResult} {a : IpResult}
    (h : a ∈ safeBackupIps inet allow addresses) : ¬ a.source.IsLive := by
  obtain ⟨b, -, hkeep⟩ := List.mem_filterMap.mp h
  split_ifs at hkeep
  obtain ⟨ipv6, -, rfl⟩ := Option.map_eq_some_iff.mp hkeep
  simp [ResolutionSource.IsLive]

/-- A cache hit reads an entry in the phase it names. -/
theorem exists_entry_of_resolved (hinv : Inv config s) (h : Resolved inet env s.st r st')
    (hhit : r.result.cacheHit = true) {a : IpResult} (ha : a ∈ r.result.addresses)
    (hlive : a.source.IsLive) :
    ∃ e, s.st.cache.lookup (cacheKey r.host r.networkEpoch) = some e ∧
      (r.via = .fresh → r.readAtMs ≤ e.expiresAtMs) ∧
      (r.via = .stale → r.readAtMs ≤ e.staleUntilMs) ∧
      ∃ b ∈ e.addresses, b.ip = a.ip ∧ b.source = a.source := by
  obtain ⟨sup, hsup, hvia, -, hfrom⟩ := h.supply
  obtain ⟨b, hb, hip, hsrc⟩ := hfrom a ha
  have hsrc := hsrc hlive
  rw [h.cacheHit, Bool.or_eq_true, beq_iff_eq] at hhit
  -- the addresses are those of the stale entry, or of a fresh one
  by_cases hstale : r.via = .stale
  · obtain ⟨hhas, haddr⟩ := hsup.stale (hvia.symm.trans hstale)
    obtain ⟨e, hlook, hnow, haddr'⟩ := exists_entry_of_hasStaleEntry hhas
    refine ⟨e, hlook, fun hfresh => ?_, fun _ => h.readAt ▸ hnow, b, ?_, hip, hsrc⟩
    · rw [hfresh] at hstale
      cases hstale
    · rwa [← haddr', ← haddr]
  · obtain ⟨e, hlook, hnow, haddr⟩ := exists_entry_of_cacheHit (hhit.resolve_right hstale)
    -- a hit that is not stale leaves the addresses of the entry where they are
    have hfresh : sup.via = .fresh := by
      by_contra hne
      exact hinv.nonempty _ _ e hlook (haddr.symm.trans (hsup.kept hne))
    refine ⟨e, hlook, fun _ => h.readAt ▸ hnow, fun h => absurd h hstale, b, ?_, hip, hsrc⟩
    rwa [← haddr, ← hsup.fresh hfresh]

/-- **One resolve is fresh** when its entry is not revived. -/
theorem freshAfter_of_resolved (hinv : Inv config s) (h : Resolved inet env s.st r st')
    (hphase : SamePhase s env.cacheNowMs r.host r.networkEpoch) :
    FreshAfter config s.history r := by
  intro hhit a ha hlive
  obtain ⟨e, hlook, hfresh, hstale, b, hb, hip, hsrc⟩ :=
    exists_entry_of_resolved hinv h hhit ha hlive
  obtain ⟨l, hl, ⟨c, hc, hip', hsrc'⟩, hstamp⟩ := hinv.live _ _ e hlook b hb (hsrc ▸ hlive)
  obtain ⟨hmem, hhost, hepoch, hvia⟩ := produced_of_lastLive hl
  refine ⟨l, hmem, ⟨hhost, hepoch, hvia, c, hc, hip'.trans hip, hsrc'.trans hsrc⟩, ?_⟩
  by_cases hre : Restamped s.history r.host r.networkEpoch
  · obtain ⟨hexp, hst⟩ := hphase e hlook l hl hre
    rw [← h.readAt, hinv.sameConfig] at hexp hst
    exact ⟨fun hv => hexp (hfresh hv), fun hv => hst (hstale hv)⟩
  · obtain ⟨hexp, hst⟩ := hstamp hre
    exact ⟨fun hv => hexp ▸ hfresh hv, fun hv => hst ▸ hstale hv⟩

/-- A tier that is not live supplies live addresses only from the entry of its key. -/
theorem exists_entry_of_not_live (hinv : Inv config s) (h : Resolved inet env s.st r st')
    (hvia : ¬ r.via.IsLive) {a : IpResult} (ha : a ∈ r.result.addresses) (hlive : a.source.IsLive) :
    r.via.IsCache ∧ r.result.cacheHit = true := by
  obtain ⟨sup, hsup, hv, -, hfrom⟩ := h.supply
  obtain ⟨b, hb, -, hsrc⟩ := hfrom a ha
  have hsrc := hsrc hlive
  rw [h.cacheHit]
  cases hcase : sup.via with
  | literal => exact absurd hcase hsup.notLiteral.1
  | nothing => exact absurd hcase hsup.notLiteral.2
  | httpDns => exact absurd (.inl (hv.trans hcase)) hvia
  | localDns => exact absurd (.inr (hv.trans hcase)) hvia
  | stale => exact ⟨.inr (hv.trans hcase), by simp [hv, hcase]⟩
  | fresh =>
    rw [hsup.fresh hcase] at hb
    exact ⟨.inl (hv.trans hcase), by simp [cacheHit_of_mem_addresses hb]⟩
  | backup =>
    rw [hsup.backup hcase, readCache_backupIps] at hb
    cases hlook : s.st.backupIps.lookup r.host with
    | none => simp [hlook] at hb
    | some l =>
      rw [hlook] at hb
      -- a backup address never has a live source
      exact absurd (hsrc ▸ hlive) (hinv.backup _ l hlook b hb)

/-- The invariant after a call for a host that is not a literal. -/
theorem inv_of_resolved (hinv : Inv config s) (h : Resolved inet env s.st r st')
    (hfresh : FreshAfter config s.history r) (clockMs : ℤ) :
    Inv config ⟨st', r :: s.history, clockMs⟩ := by
  obtain ⟨sup, hsup, hvia, -, -⟩ := h.supply
  have hnotLiteral : r.via ≠ .literal := hvia ▸ hsup.notLiteral.1
  refine ⟨h.config.trans hinv.sameConfig, by rw [h.backupIps]; exact hinv.backup, ?_, ?_,
    hfresh, hinv.fresh⟩
  · intro host networkEpoch e he
    -- the new entry holds what was returned, which is not empty; the others are old
    rcases h.cache _ e he with ⟨-, hne, rfl⟩ | ⟨-, hold⟩
    · exact hne
    · exact hinv.nonempty _ _ e hold
  · intro host networkEpoch e he a ha hlive
    -- an entry that the call wrote, or one it left alone
    rcases h.cache _ e he with ⟨hkey, hne, rfl⟩ | ⟨hother, hold⟩
    · obtain ⟨rfl, rfl⟩ := cacheKey_inj.mp hkey
      have hwrote : r.Wrote r.host r.networkEpoch := ⟨rfl, rfl, hnotLiteral, hne⟩
      rw [restamped_cons_iff_of hwrote]
      by_cases hlookup : r.via.IsLive
      · refine ⟨r, lastLive_cons_of hwrote hlookup, ⟨a, ha, rfl, rfl⟩, fun _ => ?_⟩
        rw [hinv.sameConfig]
        exact ⟨rfl, rfl⟩
      · -- a cache hit: its live addresses are those of the old entry, and the entry is re-stamped
        obtain ⟨hcache, hhit⟩ := exists_entry_of_not_live hinv h hlookup ha hlive
        obtain ⟨e, hlook, -, -, b, hb, hip, hsrc⟩ := exists_entry_of_resolved hinv h hhit ha hlive
        obtain ⟨l, hl, ⟨c, hc, hip', hsrc'⟩, -⟩ := hinv.live _ _ e hlook b hb (hsrc ▸ hlive)
        refine ⟨l, ?_, ⟨c, hc, hip'.trans hip, hsrc'.trans hsrc⟩, fun h => absurd hcache h⟩
        rw [lastLive_cons_of_not fun hl => hlookup hl.2]
        exact hl
    · have hnot : ¬ r.Wrote host networkEpoch := by
        rintro ⟨rfl, rfl, -, hne⟩
        exact hother ⟨rfl, hne⟩
      rw [lastLive_cons_of_not fun hl => hnot hl.1, restamped_cons_iff_of_not hnot]
      exact hinv.live host networkEpoch e hold a ha hlive

/-- The invariant after a call that resolves nothing and leaves only entries that were there. -/
theorem inv_of_subset (hinv : Inv config s) (hconfig : st'.config = s.st.config)
    (hbackup : ∀ host l, st'.backupIps.lookup host = some l → ∀ a ∈ l, ¬ a.source.IsLive)
    (hcache : ∀ key e, st'.cache.lookup key = some e → s.st.cache.lookup key = some e)
    (clockMs : ℤ) : Inv config ⟨st', s.history, clockMs⟩ where
  sameConfig := hconfig.trans hinv.sameConfig
  backup := hbackup
  nonempty host networkEpoch e he := hinv.nonempty host networkEpoch e (hcache _ e he)
  live host networkEpoch e he := hinv.live host networkEpoch e (hcache _ e he)
  fresh := hinv.fresh

/-- **One step keeps the invariant** when it finds no revived entry. -/
theorem inv_apply (hinv : Inv config s) (op : Op) (hcond : NotRevived s op) :
    Inv config (s.apply inet op) := by
  cases op with
  | resolve env host networkEpoch timeoutMs =>
    obtain ⟨hhost, hepoch, hcase⟩ :=
      resolveWithMetadata_cases inet env host networkEpoch timeoutMs s.st
        (Prod.mk.eta (p := resolveWithMetadata inet env host networkEpoch timeoutMs s.st)).symm
    rcases hcase with ⟨hst, hmiss, hvia⟩ | hres
    · -- literals and errors: nothing is written and nothing was read
      unfold Session.apply Session.next
      dsimp only
      rw [hst]
      generalize (resolveWithMetadata inet env host networkEpoch timeoutMs s.st).1 = r at hmiss hvia
      have hnot : ∀ host networkEpoch, ¬ r.Wrote host networkEpoch := by
        rintro _ _ ⟨-, -, hlit, hne⟩
        exact hvia.elim hlit hne
      refine ⟨hinv.sameConfig, hinv.backup, hinv.nonempty, ?_, ?_, hinv.fresh⟩
      · intro host networkEpoch
        rw [lastLive_cons_of_not fun hl => hnot _ _ hl.1, restamped_cons_iff_of_not (hnot _ _)]
        exact hinv.live host networkEpoch
      · intro hhit
        rw [hmiss] at hhit
        cases hhit
    · refine inv_of_resolved hinv hres (freshAfter_of_resolved hinv hres ?_) _
      rw [hhost, hepoch]
      exact hcond
  -- the other operations only take entries away or leave them
  | invalidate host =>
    refine inv_of_subset hinv ?_ ?_ ?_ _
    · simp only [Session.next, Dns.invalidate]
      split_ifs <;> rfl
    · simp only [Session.next, Dns.invalidate]
      split_ifs <;> exact hinv.backup
    · intro key e he
      simp only [Session.next, Dns.invalidate] at he
      split_ifs at he
      · simp at he
      · exact UnorderedMap.lookup_of_lookup_eraseIf he
  | report nowMs order host ip networkEpoch success rttMs =>
    refine inv_of_subset hinv ?_ ?_ ?_ _
    all_goals
      simp only [Session.next, reportConnectionResult]
      split_ifs
    all_goals first | rfl | exact hinv.backup | exact fun _ _ h => h
  | qualityChange snapshot =>
    refine inv_of_subset hinv ?_ ?_ ?_ _
    · rfl
    · exact hinv.backup
    · exact fun _ _ h => h
  | networkChange networkEpoch =>
    refine inv_of_subset hinv ?_ ?_ ?_ _
    · rfl
    · exact hinv.backup
    · exact fun _ _ h => h
  | setHttpdnsLookup httpdnsLookup =>
    refine inv_of_subset hinv ?_ ?_ ?_ _
    · rfl
    · exact hinv.backup
    intro key e he
    simp [Session.next, Dns.setHttpdnsLookup] at he
  | setBackupIps host addresses =>
    refine inv_of_subset hinv ?_ ?_ ?_ _
    · rfl
    · intro key l hl
      simp only [Session.next, Dns.setBackupIps] at hl
      split_ifs at hl
      -- the backup addresses of the host are cleared, or are the new ones, which are not live
      · exact hinv.backup key l (UnorderedMap.lookup_of_lookup_erase hl)
      · rcases UnorderedMap.lookup_insert_cases hl with ⟨-, rfl⟩ | ⟨-, hold⟩
        · exact fun a ha => not_isLive_of_mem_safeBackupIps ha
        · exact hinv.backup key l hold
    · intro key e he
      exact UnorderedMap.lookup_of_lookup_eraseIf he

theorem inv_init (httpdnsLookup : Bool) (clockMs : ℤ) :
    Inv config (Session.init config httpdnsLookup clockMs) where
  sameConfig := rfl
  backup := by simp [Session.init]
  nonempty := by simp [Session.init]
  live := by simp [Session.init]
  fresh := trivial

end Step

/-- **Freshness.**  In every run whose resolves find no entry that a re-stamp has carried into
another phase, every cached live address is recent enough. -/
theorem fresh_of_stepsMeet (inet : Inet) (config : Config) (httpdnsLookup : Bool) (clockMs : ℤ)
    (ops : List Op) (s : Session)
    (h : Transition.StepsMeet (Session.Step inet) NotRevived
      (Session.init config httpdnsLookup clockMs) ops s) : Fresh config s.history := by
  refine (h.invariant (I := Inv config) ?_ (inv_init httpdnsLookup clockMs)).fresh
  rintro s op _ hinv hcond ⟨-, rfl⟩
  exact inv_apply hinv op hcond

/-! ### Runs on one host -/

/-- A resolve of `example.com` at time `t`, for which LocalDNS has an answer ready. -/
def resolveAt (t : ℤ) : Op :=
  .resolve
    { startedMs := t
      cacheNowMs := t
      httpdns := { nowMs := t, outcome := .threadFailed }
      localdns := { nowMs := t, outcome := .answered [.inet4 ![93, 184, 216, 34]] }
      writeNowMs := t
      finishedMs := t }
    (ByteString.ascii "example.com") 0 0

/-- The session after resolves at the given times. -/
def resolvesAt (times : List ℤ) : Session :=
  times.foldl (fun s t => s.apply Inet.plain (resolveAt t)) (Session.init {} false 0)

/-- Resolves at increasing times make a run. -/
theorem step_resolvesAt (times : List ℤ) (t : ℤ) (h : (resolvesAt times).clockMs ≤ t) :
    Session.Step Inet.plain (resolvesAt times) (resolveAt t) (resolvesAt (times ++ [t])) := by
  refine ⟨?_, by simp [resolvesAt]⟩
  simp [resolveAt, Op.readings, h]

/-- Three resolves, the third within the lifetime of the first although the second re-stamps. -/
theorem fresh_of_stepsMeet_resolvesAt : Fresh {} (resolvesAt [0, 200000, 250000]).history := by
  have hfirst : NotRevived (resolvesAt []) (resolveAt 0) := by
    intro e he
    simp [resolvesAt, Session.init] at he
  have hsecond : NotRevived (resolvesAt [0]) (resolveAt 200000) := by
    rintro e - l - ⟨w, hw, hcache⟩
    have hlive : ∀ w ∈ lastWrite (resolvesAt [0]).history (ByteString.ascii "example.com") 0,
        ¬ w.via.IsCache := by decide +kernel
    exact absurd hcache (hlive w hw)
  have hthird : NotRevived (resolvesAt [0, 200000]) (resolveAt 250000) := by
    intro e he l hl _
    have hzero : ∀ l ∈ lastLive (resolvesAt [0, 200000]).history (ByteString.ascii "example.com") 0,
        l.writtenAtMs = 0 := by decide +kernel
    have hexpiry : (250000 : ℤ) ≤ 0 + (resolvesAt [0, 200000]).st.config.ttlMs ∧ (250000 : ℤ) ≤
        0 + (resolvesAt [0, 200000]).st.config.ttlMs +
          (resolvesAt [0, 200000]).st.config.staleTtlMs := by decide +kernel
    rw [hzero l hl]
    exact ⟨fun _ => hexpiry.1, fun _ => hexpiry.2⟩
  exact fresh_of_stepsMeet Inet.plain {} false 0 _ _
    (((Transition.StepsMeet.nil.snoc hfirst (step_resolvesAt [] 0 (by decide +kernel))).snoc
      hsecond (step_resolvesAt [0] 200000 (by decide +kernel))).snoc
      hthird (step_resolvesAt [0, 200000] 250000 (by decide +kernel)))

/-- The cache hit at 200 s moves the expiry of an answer of time 0 to 500 s, so that the hit at
400 s serves it, 100 s after its lifetime of 300 s is over. -/
theorem exists_run_not_fresh : ∃ ops s,
    Transition.Run (Session.Step Inet.plain) (Session.init {} false 0) ops s ∧
      ¬ Fresh {} s.history := by
  refine ⟨_, _, ((Transition.Run.nil.snoc (step_resolvesAt [] 0 (by decide +kernel))).snoc
    (step_resolvesAt [0] 200000 (by decide +kernel))).snoc
    (step_resolvesAt [0, 200000] 400000 (by decide +kernel)), ?_⟩
  intro hfresh
  have hhistory : (resolvesAt ([0, 200000] ++ [400000])).history =
      (resolvesAt ([0, 200000] ++ [400000])).history.head (by decide +kernel) ::
        (resolvesAt [0, 200000]).history := by decide +kernel
  have hlast : ∀ r, r = (resolvesAt ([0, 200000] ++ [400000])).history.head (by decide +kernel) →
      r.result.cacheHit = true ∧ r.via = .fresh ∧ r.readAtMs = 400000 ∧
        ∃ a ∈ r.result.addresses, a.source.IsLive := by
    rintro _ rfl
    decide +kernel
  have hlookups : ∀ l ∈ (resolvesAt [0, 200000]).history, l.via.IsLive → l.writtenAtMs = 0 := by
    decide +kernel
  rw [hhistory] at hfresh
  obtain ⟨hhit, hvia, hread, a, ha, hsource⟩ := hlast _ rfl
  obtain ⟨l, hl, hproduced, hrecent, -⟩ := hfresh.1 hhit a ha hsource
  have hwithin := hrecent hvia
  rw [hread, hlookups l hl hproduced.live] at hwithin
  exact absurd hwithin (by decide)

end AsterNet.Dns
