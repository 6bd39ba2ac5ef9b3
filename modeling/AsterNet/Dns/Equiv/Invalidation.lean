import AsterNet.Dns.Equiv.Sources

/-!
# Which clearing calls are lost

`set_httpdns_lookup`, `invalidate` and `set_backup_ips` empty the cache, but a call of
`resolve_with_metadata` that is under way writes back what it obtained before, and later calls are
answered from it for a whole TTL (`exists_run_outdated`).

* `current_iff_of_run`: no entry is outdated, in any state of a run, if and only if no call of the run
  writes back addresses that such a clearing call has outdated; and in such a run no call is answered from
  data that was outdated before it began.
-/

namespace AsterNet.Dns

namespace Threads

open Transition (Run StepsMeet)

/-- The event is a call that clears the cache for the host. -/
def Event.Clears (host : Bytes) : Event → Prop
  | .replaced => True
  | .invalidated host' => host' = [] ∨ host' = host
  | .configured host' _ => host' = host
  | _ => False

/-- Addresses of this origin were obtained before the clearing call at position `k`, or (when it replaced
the HttpDNS function) from the function it replaced. -/
def Origin.Before (o : Origin) (k : ℕ) : Event → Prop
  | .replaced => o.providerAt ≤ k
  | _ => o.obtainedAt ≤ k

/-- One of the clearing calls in the history was to remove these addresses of the host. -/
def Outdated (h : List Event) (host : Bytes) (o : Origin) : Prop :=
  ∃ (k : ℕ) (e : Event), h[k]? = some e ∧ e.Clears host ∧ o.Before k e

instance Event.decidableClears (host : Bytes) : (e : Event) → Decidable (e.Clears host)
  | .answered .. => .isFalse id
  | .replaced => .isTrue trivial
  | .invalidated host' => inferInstanceAs (Decidable (host' = [] ∨ host' = host))
  | .configured host' _ => inferInstanceAs (Decidable (host' = host))
  | .returned .. => .isFalse id

instance Origin.decidableBefore (o : Origin) (k : ℕ) : (e : Event) → Decidable (o.Before k e)
  | .answered .. => inferInstanceAs (Decidable (o.obtainedAt ≤ k))
  | .replaced => inferInstanceAs (Decidable (o.providerAt ≤ k))
  | .invalidated _ => inferInstanceAs (Decidable (o.obtainedAt ≤ k))
  | .configured .. => inferInstanceAs (Decidable (o.obtainedAt ≤ k))
  | .returned .. => inferInstanceAs (Decidable (o.obtainedAt ≤ k))

instance decidableOutdated (h : List Event) (host : Bytes) (o : Origin) : Decidable (Outdated h host o) :=
  decidable_of_iff (∃ k < h.length, ∃ e ∈ h[k]?, e.Clears host ∧ o.Before k e)
    ⟨fun ⟨k, _, e, he, hrest⟩ => ⟨k, e, he, hrest⟩,
      fun ⟨k, e, he, hrest⟩ => ⟨k, (List.getElem?_eq_some_iff.mp he).1, e, he, hrest⟩⟩

/-- No cache entry is outdated. -/
def EntriesCurrent {ι : Type} (s : Trace ι) : Prop :=
  ∀ host networkEpoch e, s.1.st.cache.lookup (cacheKey host networkEpoch) = some e →
    ¬ Outdated s.2 host (s.1.origins (cacheKey host networkEpoch))

/-- The call that writes back in a step. -/
def writer {ι : Type} (s : Trace ι) : Act ι → Option Call
  | .write t _ _ =>
    match s.1.calls t with
    | some (.writing, c) => some c
    | _ => none
  | _ => none

/-- The condition on a step: a call does not write back outdated addresses. -/
def Undisturbed {ι : Type} (s : Trace ι) (a : Act ι) : Prop :=
  ∀ c ∈ writer s a, c.addresses ≠ [] → ¬ Outdated s.2 c.host c.origin

instance decidableUndisturbed {ι : Type} (s : Trace ι) (a : Act ι) : Decidable (Undisturbed s a) :=
  inferInstanceAs (Decidable (∀ c ∈ writer s a, _ → _))

/-- No call was answered from data that was outdated when it began, and what its origin says is true. -/
def AnsweredCurrent (inet : Inet) (h : List Event) : Prop :=
  ∀ call result, .returned call result ∈ h → ¬ Outdated (h.take call.startedAt) call.host call.origin ∧
    ∀ a ∈ result.addresses, (isNumericIp inet call.host).isSome ∧ a.ip = call.host ∨
      call.origin.Gives h call.host call.networkEpoch a.ip

section

variable {h : List Event} {host : Bytes} {o : Origin} {e : Event}

theorem outdated_append_singleton_iff :
    Outdated (h ++ [e]) host o ↔ Outdated h host o ∨ e.Clears host ∧ o.Before h.length e := by
  constructor
  · rintro ⟨k, e', hk, hclears, hbefore⟩
    rcases Nat.lt_or_ge k h.length with hlt | hge
    · rw [List.getElem?_append_left hlt] at hk
      exact .inl ⟨k, e', hk, hclears, hbefore⟩
    · have hlt := (List.getElem?_eq_some_iff.mp hk).1
      rw [List.length_append, List.length_singleton] at hlt
      obtain rfl : k = h.length := by omega
      rw [getElem?_append_singleton] at hk
      obtain rfl := Option.some.inj hk
      exact .inr ⟨hclears, hbefore⟩
  · rintro (⟨k, e', hk, hclears, hbefore⟩ | ⟨hclears, hbefore⟩)
    · exact ⟨k, e', getElem?_append_of_some hk, hclears, hbefore⟩
    · exact ⟨h.length, e, getElem?_append_singleton e, hclears, hbefore⟩

theorem not_outdated_append_singleton (hno : ¬ e.Clears host) (hcurrent : ¬ Outdated h host o) :
    ¬ Outdated (h ++ [e]) host o := by
  rw [outdated_append_singleton_iff]
  rintro (hout | hout)
  · exact hcurrent hout
  · exact hno hout.1

theorem outdated_of_take {n : ℕ} (hout : Outdated (h.take n) host o) : Outdated h host o := by
  obtain ⟨k, e', hk, hrest⟩ := hout
  rw [List.getElem?_take] at hk
  split_ifs at hk
  exact ⟨k, e', hk, hrest⟩

/-- What was obtained after a history is not outdated by it. -/
theorem not_outdated_take {n : ℕ} (hobtained : n ≤ o.obtainedAt) (hprovider : n ≤ o.providerAt) :
    ¬ Outdated (h.take n) host o := by
  rintro ⟨k, e', hk, -, hbefore⟩
  have hlt := (List.getElem?_eq_some_iff.mp hk).1
  rw [List.length_take] at hlt
  unfold Origin.Before at hbefore
  split at hbefore
  · omega
  · omega

end

theorem writer_write {ι : Type} {s : Trace ι} {t : ι} {c : Call} {nowMs : ℤ} {evict : ℕ}
    (hcall : s.1.calls t = some (.writing, c)) : writer s (.write t nowMs evict) = some c := by
  rw [writer, hcall]

theorem exists_of_writer {ι : Type} {s : Trace ι} {a : Act ι} {c : Call} (hc : writer s a = some c) :
    ∃ t nowMs evict, a = .write t nowMs evict ∧ s.1.calls t = some (.writing, c) := by
  unfold writer at hc
  split at hc
  · case h_1 t nowMs evict =>
    split at hc
    · case h_1 c' hcall =>
      obtain rfl := Option.some.inj hc
      exact ⟨t, nowMs, evict, rfl, hcall⟩
    · cases hc
  · cases hc

/-! ### The calls that are under way -/

/-- What a call has is not older than its beginning, but for a cache entry that was current then. -/
structure Call.Recent (c : Call) (h : List Event) : Prop where
  started : c.startedAt ≤ h.length
  read : c.startedAt ≤ c.readAt
  answered : c.startedAt ≤ c.answeredAt
  cached : ¬ Outdated (h.take c.startedAt) c.host c.cached

section

variable {c : Call} {h : List Event}

theorem Call.Recent.append (hc : c.Recent h) (es : List Event) : c.Recent (h ++ es) where
  started := hc.started.trans (by simp)
  read := hc.read
  answered := hc.answered
  cached := by
    rw [List.take_append_of_le_length hc.started]
    exact hc.cached

theorem recent_new (host : Bytes) (networkEpoch : ℕ) (timeoutMs startedMs : ℤ) (via : Via) :
    { Call.new host networkEpoch timeoutMs startedMs h.length with via }.Recent h where
  started := le_rfl
  read := le_rfl
  answered := le_rfl
  cached := not_outdated_take le_rfl le_rfl

/-- The addresses of a call were current when it began. -/
theorem Call.Recent.origin (hc : c.Recent h) : ¬ Outdated (h.take c.startedAt) c.host c.origin := by
  unfold Call.origin
  split
  · exact hc.cached
  · exact hc.cached
  · exact not_outdated_take hc.answered hc.read
  · exact not_outdated_take hc.answered hc.answered
  · exact not_outdated_take hc.read hc.read

theorem Call.Recent.leave (hc : c.Recent h) (inet : Inet) (st : State) (tier : Tier)
    (passage : Passage) : (c.leave inet st tier passage).2.Recent h := by
  cases tier with
  | httpDns => exact ⟨hc.started, hc.read, hc.answered, hc.cached⟩
  | localDns => exact ⟨hc.started, hc.read, hc.answered, hc.cached⟩

end

/-! ### The invariant -/

/-- What holds of every machine that was reached by undisturbed steps. -/
structure Current {ι : Type} (s : Trace ι) : Prop where
  cache : EntriesCurrent s
  calls : ∀ t stage c, s.1.calls t = some (stage, c) → c.Recent s.2
  returned : ∀ call result, .returned call result ∈ s.2 → call.Recent s.2

section

variable {ι : Type} [DecidableEq ι] {inet : Inet} {m m' : Machine ι} {h : List Event} {e : Event}

omit [DecidableEq ι] in
/-- A step that adds one event, clears nothing and leaves only entries that were there. -/
theorem current_of_subset (hcur : Current (m, h)) (hcache : ∀ key e, m'.st.cache.lookup key = some e →
      m.st.cache.lookup key = some e ∧ m'.origins key = m.origins key) (hno : ∀ host, ¬ e.Clears host)
    (hcalls : ∀ t stage c, m'.calls t = some (stage, c) → c.Recent (h ++ [e]))
    (hreturned : ∀ call result, e = .returned call result → call.Recent h) :
    Current (m', h ++ [e]) where
  cache host networkEpoch entry hentry := by
    obtain ⟨hold, horigin⟩ := hcache _ entry hentry
    show ¬ Outdated (h ++ [e]) host (m'.origins (cacheKey host networkEpoch))
    rw [horigin]
    exact not_outdated_append_singleton (hno host) (hcur.cache host networkEpoch entry hold)
  calls := hcalls
  returned call result hmem := by
    rcases List.mem_append.mp hmem with hmem | hmem
    · exact (hcur.returned call result hmem).append _
    · exact (hreturned call result (List.mem_singleton.mp hmem).symm).append _

/-- A step of a call that adds no event and leaves the cache. -/
theorem current_goto (hcur : Current (m, h)) {m₁ : Machine ι} (hsame : m₁.SameData m) {t : ι}
    {stage : Stage} {c : Call} (hc : c.Recent h) : Current (m₁.goto t (some (stage, c)), h) := by
  refine ⟨fun host networkEpoch e he => ?_, ?_, hcur.returned⟩
  · rw [Machine.goto_st, hsame.cache] at he
    rw [Machine.goto_origins, hsame.origins]
    exact hcur.cache host networkEpoch e he
  · refine Machine.forall_calls_goto (P := fun _ c' => c'.Recent h) ?_ ?_
    · rw [hsame.calls]
      exact hcur.calls
    · intro stage' c' heq
      cases heq
      exact hc

omit [DecidableEq ι] in
/-- A clearing call leaves no entry of a host it clears. -/
theorem current_of_clear (hcur : Current (m, h)) (hcalls : m'.calls = m.calls)
    (hcache : ∀ host networkEpoch entry, m'.st.cache.lookup (cacheKey host networkEpoch) = some entry →
      ¬ e.Clears host ∧ m.st.cache.lookup (cacheKey host networkEpoch) = some entry)
    (horigins : m'.origins = m.origins) (hne : ∀ call result, e ≠ .returned call result) :
    Current (m', h ++ [e]) where
  cache host networkEpoch entry hentry := by
    obtain ⟨hno, hold⟩ := hcache host networkEpoch entry hentry
    show ¬ Outdated (h ++ [e]) host (m'.origins (cacheKey host networkEpoch))
    rw [horigins]
    exact not_outdated_append_singleton hno (hcur.cache host networkEpoch entry hold)
  calls t stage c hu := by
    rw [hcalls] at hu
    exact (hcur.calls t stage c hu).append _
  returned call result hmem := by
    rcases List.mem_append.mp hmem with hmem | hmem
    · exact (hcur.returned call result hmem).append _
    · exact absurd (List.mem_singleton.mp hmem).symm (hne call result)

theorem isPrefixOf_cacheKey (host : Bytes) (networkEpoch : ℕ) :
    (host ++ [10]).isPrefixOf (cacheKey host networkEpoch) = true := by
  rw [List.isPrefixOf_iff_prefix]
  exact ⟨ByteString.decimal networkEpoch, by simp [cacheKey]⟩

/-- An entry that is left after the keys of a host were erased is not the host's. -/
theorem lookup_eraseIf_host {cache : AList fun _ : Bytes => CacheEntry} {host host' : Bytes}
    {networkEpoch : ℕ} {entry : CacheEntry}
    (hentry : (UnorderedMap.eraseIf ((host' ++ [10]).isPrefixOf ·) cache).lookup
      (cacheKey host networkEpoch) = some entry) :
    host' ≠ host ∧ cache.lookup (cacheKey host networkEpoch) = some entry := by
  refine ⟨?_, UnorderedMap.lookup_of_lookup_eraseIf hentry⟩
  rintro rfl
  rw [UnorderedMap.lookup_eraseIf, if_pos (isPrefixOf_cacheKey host' networkEpoch)] at hentry
  cases hentry

/-- **One undisturbed section keeps the entries current.** -/
theorem current_of_stepped (hcur : Current (m, h)) {a : Act ι} {es : List Event}
    (hs : Stepped inet m h a m' es) (hcond : Undisturbed (m, h) a) : Current (m', h ++ es) := by
  have hrefl : m.SameData m := ⟨rfl, rfl, rfl, rfl, rfl⟩
  -- what a call saw stays recent as the history grows
  have hold : ∀ e, ∀ u stage c, m.calls u = some (stage, c) → c.Recent (h ++ [e]) :=
    fun e u stage c hu => (hcur.calls u stage c hu).append _
  cases hs with
  | answered host networkEpoch timeoutMs startedMs elapsedMs result hresult =>
    refine current_of_subset hcur (fun key e he => ⟨he, rfl⟩) (fun _ => id) (hold _) ?_
    intro call result heq
    cases heq
    exact recent_new host networkEpoch timeoutMs startedMs .literal
  | began t host networkEpoch timeoutMs startedMs =>
    rw [List.append_nil]
    exact current_goto hcur hrefl (recent_new host networkEpoch timeoutMs startedMs .nothing)
  | looked t c nowMs hcall =>
    rw [List.append_nil]
    -- an entry that is read is current, so what the call caches of it is not outdated
    have hc := hcur.calls t _ c hcall
    have hcached : ¬ Outdated (h.take c.startedAt) c.host
        (m.cachedOrigin h (cacheKey c.host c.networkEpoch)) := by
      unfold Machine.cachedOrigin
      split_ifs with hkey
      · obtain ⟨e, he⟩ := Option.isSome_iff_exists.mp (AList.lookup_isSome.mpr hkey)
        exact fun hout => hcur.cache c.host c.networkEpoch e he (outdated_of_take hout)
      · exact not_outdated_take hc.started hc.started
    exact current_goto hcur hrefl ⟨hc.started, hc.started, hc.answered, hcached⟩
  | qualityRead t c hcall =>
    rw [List.append_nil]
    have hc := hcur.calls t _ c hcall
    exact current_goto hcur hrefl ⟨hc.started, hc.read, hc.answered, hc.cached⟩
  | taken t tier c hcall hnone =>
    rw [List.append_nil]
    have hsame : (m.withState { m.st with activeLookups := m.st.activeLookups + 1 }).SameData m :=
      ⟨rfl, rfl, rfl, rfl, rfl⟩
    exact current_goto hcur hsame (hcur.calls t _ c hcall)
  | created t tier c hcall =>
    rw [List.append_nil]
    exact current_goto hcur hrefl (hcur.calls t _ c hcall)
  | left t tier c stage passage m₁ hcall hunserved hsame =>
    rw [List.append_nil]
    exact current_goto hcur hsame ((hcur.calls t _ c hcall).leave inet m.st tier passage)
  -- the answer is of this moment
  | servedHttpDns t c addresses hcall =>
    have hc := hold (.answered .httpDns c.host c.networkEpoch addresses) t _ c hcall
    have hserved : (c.serve .httpDns (filterHttpDns inet m.st.config.allowPrivateAddresses addresses)
        h.length).Recent (h ++ [.answered .httpDns c.host c.networkEpoch addresses]) :=
      ⟨hc.started, hc.read, (hcur.calls t _ c hcall).started, hc.cached⟩
    refine current_of_subset hcur (fun key e he => ⟨he, rfl⟩) (fun _ => id) ?_ (by simp)
    refine Machine.forall_calls_goto (P := fun _ c' => c'.Recent _) (hold _) ?_
    intro stage' c' heq
    cases heq
    exact hserved.leave inet m.st .httpDns _
  | servedLocalDns t c raw hcall =>
    have hc := hold (.answered .localDns c.host c.networkEpoch
      (resolveLocal inet raw m.st.config.allowPrivateAddresses)) t _ c hcall
    have hserved : (c.serve .localDns (resolveLocal inet raw m.st.config.allowPrivateAddresses)
        h.length).Recent (h ++ [.answered .localDns c.host c.networkEpoch
          (resolveLocal inet raw m.st.config.allowPrivateAddresses)]) :=
      ⟨hc.started, hc.read, (hcur.calls t _ c hcall).started, hc.cached⟩
    refine current_of_subset hcur (fun key e he => ⟨he, rfl⟩) (fun _ => id) ?_ (by simp)
    refine Machine.forall_calls_goto (P := fun _ c' => c'.Recent _) (hold _) ?_
    intro stage' c' heq
    cases heq
    exact hserved.leave inet m.st .localDns _
  -- what happens in the background changes no entry
  | background m₁ hsame =>
    rw [List.append_nil]
    refine ⟨fun host networkEpoch e he => ?_, ?_, hcur.returned⟩
    · rw [hsame.cache] at he
      rw [hsame.origins]
      exact hcur.cache host networkEpoch e he
    · rw [hsame.calls]
      exact hcur.calls
  | wrote t c nowMs evict hact hcall =>
    rw [List.append_nil]
    rw [hact] at hcond
    refine ⟨fun host networkEpoch e he => ?_, ?_, hcur.returned⟩
    · rcases lookup_write he with ⟨hkey, hne, horigin, -⟩ | ⟨hlook, horigin⟩
      · -- the entry that is written: here the condition is needed
        obtain ⟨rfl, rfl⟩ := cacheKey_inj.mp hkey
        rw [horigin]
        exact hcond c (writer_write hcall) hne
      · rw [horigin]
        exact hcur.cache host networkEpoch e hlook
    · refine Machine.forall_calls_goto (P := fun _ c' => c'.Recent h) hcur.calls ?_
      intro stage' c' heq
      cases heq
      have hc := hcur.calls t _ c hcall
      exact ⟨hc.started, hc.read, hc.answered, hc.cached⟩
  | finished t c nowMs hcall =>
    refine current_of_subset hcur (fun key e he => ⟨he, rfl⟩) (fun _ => id) ?_ ?_
    · refine Machine.forall_calls_goto (P := fun _ c' => c'.Recent _) (hold _) ?_
      intro stage' c' heq
      cases heq
    · intro call result heq
      cases heq
      exact hcur.calls t _ c hcall
  -- the three operations that clear: the entries they leave are of other hosts
  | invalidated host =>
    refine current_of_clear hcur rfl (fun host' networkEpoch entry hentry => ?_) rfl (by simp)
    rw [Machine.withState_st, invalidate] at hentry
    split_ifs at hentry with hempty
    · simp at hentry
    · obtain ⟨hne, hlook⟩ := lookup_eraseIf_host hentry
      refine ⟨?_, hlook⟩
      rintro (rfl | rfl)
      · exact hempty rfl
      · exact hne rfl
  | replaced httpdnsLookup =>
    refine current_of_clear hcur rfl (fun host' networkEpoch entry hentry => ?_) rfl (by simp)
    simp [setHttpdnsLookup] at hentry
  | configured host addresses =>
    refine current_of_clear hcur rfl (fun host' networkEpoch entry hentry => ?_) rfl (by simp)
    obtain ⟨hne, hlook⟩ := lookup_eraseIf_host hentry
    exact ⟨fun heq => hne heq, hlook⟩

omit [DecidableEq ι] in
theorem current_init (config : Config) (httpdnsLookup : Bool) :
    Current (init ι config httpdnsLookup) where
  cache := by simp [EntriesCurrent, init]
  calls := by simp [init]
  returned := by simp [init]

theorem current_of_steps {s s' : Trace ι} {a : Act ι} (hcur : Current s) (hcond : Undisturbed s a)
    (hs : Steps inet s a s') : Current s' := by
  obtain ⟨es, hstepped, heq⟩ := hs.stepped
  have hnext := current_of_stepped hcur hstepped hcond
  rw [← heq] at hnext
  exact hnext

/-- A write back of outdated addresses leaves an outdated entry. -/
theorem not_entriesCurrent_of_steps {s s' : Trace ι} {a : Act ι} (hcond : ¬ Undisturbed s a)
    (hs : Steps inet s a s') : ¬ EntriesCurrent s' := by
  intro hcurrent
  refine hcond fun c hc hne hout => ?_
  obtain ⟨t, nowMs, evict, rfl, hcall⟩ := exists_of_writer hc
  have hact : s.1.act inet s.2 (.write t nowMs evict) = some (s.1.write t c nowMs evict, []) := by
    rw [Machine.act, hcall]
  have heq : some (s.1.write t c nowMs evict, s.2 ++ []) = some s' := by
    rw [← hs, next, hact]
    rfl
  obtain rfl := Option.some.inj heq
  obtain ⟨e, he, horigin⟩ := exists_lookup_write s.1 t hne nowMs evict
  refine hcurrent c.host c.networkEpoch e he ?_
  rw [horigin, List.append_nil]
  exact hout

/-- **Which clearing calls are lost.** -/
theorem current_iff_of_run {config : Config} {httpdnsLookup : Bool} {acts : List (Act ι)} {s : Trace ι}
    (hrun : Run (Steps inet) (init ι config httpdnsLookup) acts s) :
    ((∀ acts₁ acts₂ u, acts = acts₁ ++ acts₂ →
        Run (Steps inet) (init ι config httpdnsLookup) acts₁ u → EntriesCurrent u) ↔
      StepsMeet (Steps inet) Undisturbed (init ι config httpdnsLookup) acts s) ∧
    (StepsMeet (Steps inet) Undisturbed (init ι config httpdnsLookup) acts s →
      AnsweredCurrent inet s.2) := by
  have hinit : Current (init ι config httpdnsLookup) := current_init config httpdnsLookup
  have hkeep : ∀ (s : Trace ι) a s', Current s → Undisturbed s a → Steps inet s a s' → Current s' :=
    fun _ _ _ hcur hcond hs => current_of_steps hcur hcond hs
  have hbreak : ∀ (s : Trace ι) a s', Current s → ¬ Undisturbed s a → Steps inet s a s' →
      ¬ EntriesCurrent s' := fun _ _ _ _ hcond hs => not_entriesCurrent_of_steps hcond hs
  refine ⟨hrun.forall_prefix_iff_stepsMeet ?_ (fun s hcur => hcur.cache) hkeep hbreak hinit, ?_⟩
  · intro s a s₁ s₂ h₁ h₂
    exact Option.some.inj (h₁.symm.trans h₂)
  · intro hmeet call result hreturned
    have hcur : Current s := hmeet.invariant hkeep hinit
    refine ⟨(hcur.returned call result hreturned).origin, fun a ha => ?_⟩
    obtain ⟨before, after, heq, hgives⟩ :=
      (inv_of_run hrun).returned.exists_of_mem hreturned
    rw [heq]
    rcases hgives a.ip (List.mem_map_of_mem ha) with hliteral | hgives
    · exact .inl hliteral
    · exact .inr (hgives.append _)

end

/-! ### An invalidation while a call is under way, and between two calls -/

/-- The host is invalidated before a call is made, and before the next one. -/
def invalidates : List (Act ℕ) :=
  [.invalidate hostA] ++ begins 0 ++ serves 0 "192.0.2.1" ++ ends 0 ++
    ([.invalidate hostA] ++ begins 1 ++ serves 1 "192.0.2.2" ++ ends 1)

theorem current_iff_of_run_invalidates : ∃ s,
    StepsMeet (Steps Inet.plain) Undisturbed start invalidates s ∧
      (∀ acts₁ acts₂ u, invalidates = acts₁ ++ acts₂ → Run (Steps Inet.plain) start acts₁ u →
        EntriesCurrent u) ∧
      AnsweredCurrent Inet.plain s.2 := by
  obtain ⟨s, hs⟩ := Option.isSome_iff_exists.mp (show (invalidates.foldlM (fun s a =>
    if Undisturbed s a then next Inet.plain s a else none) start).isSome = true by decide +kernel)
  have hmeet : StepsMeet (Steps Inet.plain) Undisturbed start invalidates s :=
    StepsMeet.of_foldlM (f := next Inet.plain) hs
  exact ⟨s, hmeet, (current_iff_of_run hmeet.run).1.mpr hmeet, (current_iff_of_run hmeet.run).2 hmeet⟩

/-- The host is invalidated while a call holds its answer; the next call is served from the cache. -/
def overtaken : List (Act ℕ) :=
  begins 0 ++ serves 0 "192.0.2.1" ++ [.invalidate hostA] ++ ends 0 ++
    (begins 1 ++ [.gate 1 0, .gate 1 0] ++ ends 1)

theorem exists_run_outdated : ∃ acts s, Run (Steps Inet.plain) start acts s ∧
    ∃ call result, lastReturned s.2 = some (call, result) ∧
      ips result.addresses = [ByteString.ascii "192.0.2.1"] ∧
      Outdated (s.2.take call.startedAt) call.host call.origin ∧ ¬ AnsweredCurrent Inet.plain s.2 := by
  obtain ⟨⟨call, result⟩, hlast⟩ := Option.isSome_iff_exists.mp
    (show (lastReturned (after overtaken).2).isSome = true by decide +kernel)
  have hstale : ∀ r ∈ lastReturned (after overtaken).2,
      ips r.2.addresses = [ByteString.ascii "192.0.2.1"] ∧
        Outdated ((after overtaken).2.take r.1.startedAt) r.1.host r.1.origin := by decide +kernel
  obtain ⟨hips, hout⟩ := hstale _ hlast
  refine ⟨overtaken, after overtaken, run_after (by decide +kernel), call, result, hlast, hips, hout, ?_⟩
  intro hcurrent
  refine (hcurrent call result ?_).1 hout
  rw [eq_of_lastReturned hlast]
  exact List.mem_append_right _ List.mem_cons_self

end Threads

end AsterNet.Dns
