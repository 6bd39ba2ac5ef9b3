import AsterNet.Engine.Breaker

/-!
# The law of the circuit breaker

`failuresSince`, `lastFailure` and `streak` read the history of a circuit alone: no table, no text keys,
no counter.  The table is tied to them by two invariants.

* `Bounded` holds in every run, whatever a full table evicts: a counter never exceeds the failures since
  the last success, and a ban ends one cooldown after the last failure.
* `Exact` holds while the table has room for every circuit: the counter is the streak.

`breaker_law` reads off them when a circuit is reported unavailable.
-/

namespace AsterNet.ProtocolSelector

open Transition

/-! ### What the history says -/

/-- The failures recorded since the last success. -/
def failuresSince (k : Circuit) : List Record → ℕ
  | [] => 0
  | .check .. :: history => failuresSince k history
  | .failure c _ :: history => if c = k then failuresSince k history + 1 else failuresSince k history
  | .success c _ :: history => if c = k then 0 else failuresSince k history

/-- The time of the last failure. -/
def lastFailure (k : Circuit) : List Record → Option ℕ
  | [] => none
  | .failure c nowMs :: history => if c = k then some nowMs else lastFailure k history
  | _ :: history => lastFailure k history

/-- A cooldown after the last failure is over. -/
def cooledDown (settings : Settings) (k : Circuit) (history : List Record) (nowMs : ℕ) : Prop :=
  ∀ t, lastFailure k history = some t → t + settings.cooldownMs ≤ nowMs

instance (settings : Settings) (k : Circuit) (history : List Record) (nowMs : ℕ) :
    Decidable (cooledDown settings k history nowMs) :=
  match h : lastFailure k history with
  | none => isTrue fun t ht => by rw [h] at ht; cases ht
  | some t =>
    decidable_of_iff (t + settings.cooldownMs ≤ nowMs)
      ⟨fun hle t' ht => by rw [h] at ht; cases ht; exact hle, fun hall => hall t h⟩

/-- The failures recorded since the last success or the last cooldown that expired; an expiry counts from
the check that finds it. -/
def streak (settings : Settings) (k : Circuit) : List Record → ℕ
  | [] => 0
  | .check c nowMs _ :: history =>
    if c = k ∧ settings.maxFailures ≤ streak settings k history ∧
        cooledDown settings k history nowMs then 0
    else streak settings k history
  | .failure c _ :: history =>
    if c = k then streak settings k history + 1 else streak settings k history
  | .success c _ :: history => if c = k then 0 else streak settings k history

/-! ### Keys -/

theorem Circuit.key_injective : Function.Injective Circuit.key := by
  rintro ⟨host, port, epoch, type⟩ ⟨host', port', epoch', type'⟩ h
  obtain ⟨htext, htype⟩ := Prod.mk.inj h
  -- the last two lines are numbers, whatever the host holds
  have hdigit : ByteString.digitVal 10 10 = none := rfl
  obtain ⟨hfront, hepoch⟩ := ByteString.append_cons_inj_of_notMem_right
    (ByteString.notMem_decimal hdigit _) (ByteString.notMem_decimal hdigit _) htext
  obtain ⟨hhost, hport⟩ := ByteString.append_cons_inj_of_notMem_right
    (ByteString.notMem_decimal hdigit _) (ByteString.notMem_decimal hdigit _) hfront
  obtain rfl : host = host' := hhost
  obtain rfl := UInt16.toNat_inj.mp (ByteString.decimal_inj.mp hport)
  obtain rfl := ByteString.decimal_inj.mp hepoch
  obtain rfl : type = type' := htype
  rfl

theorem Circuit.key_ne {k c : Circuit} (hne : c ≠ k) : k.key ≠ c.key :=
  fun hkey => hne (Circuit.key_injective hkey).symm

/-! ### What one call does to an entry -/

section

variable {settings : Settings} {states : Breakers} {k c : Circuit} {nowMs choice : ℕ}
  {st : BreakerState}

/-- An entry after a check: it was there, or it is a ban that is over. -/
theorem lookup_checkAt (h : (checkAt states c.key nowMs).2.lookup k.key = some st) :
    (states.lookup k.key = some st ∧
      (c = k → st.bannedUntilMs = 0 ∨ ¬ st.bannedUntilMs ≤ nowMs)) ∨
    (c = k ∧ st = { failures := 0, bannedUntilMs := 0 } ∧
      ∃ old, states.lookup k.key = some old ∧ old.bannedUntilMs ≠ 0 ∧ old.bannedUntilMs ≤ nowMs) := by
  unfold checkAt at h
  -- the entry looked for is that of the circuit checked, or another one
  rcases hlookup : states.lookup c.key with - | old
  · rw [hlookup] at h
    refine .inl ⟨h, ?_⟩
    rintro rfl
    rw [show states.lookup c.key = some st from h] at hlookup
    cases hlookup
  · simp only [hlookup] at h
    split_ifs at h with hzero hover
    · refine .inl ⟨h, ?_⟩
      rintro rfl
      obtain rfl := Option.some.inj (hlookup.symm.trans h)
      exact .inl hzero
    · -- a check writes nothing but the entry of a ban that is over
      rcases UnorderedMap.lookup_insert_cases h with ⟨hkey, rfl⟩ | ⟨hne, h⟩
      · obtain rfl := Circuit.key_injective hkey
        exact .inr ⟨rfl, rfl, old, hlookup, hzero, hover⟩
      · refine .inl ⟨h, ?_⟩
        rintro rfl
        exact absurd rfl hne
    · refine .inl ⟨h, ?_⟩
      rintro rfl
      obtain rfl := Option.some.inj (hlookup.symm.trans h)
      exact .inr hover

/-- A circuit is reported unavailable only under a ban that is not over. -/
theorem checkAt_eq_false_iff : (checkAt states k.key nowMs).1 = false ↔
    ∃ st, states.lookup k.key = some st ∧ st.bannedUntilMs ≠ 0 ∧ nowMs < st.bannedUntilMs := by
  unfold checkAt
  rcases hlookup : states.lookup k.key with - | old
  · simp
  · simp only [Option.some.injEq, exists_eq_left']
    split_ifs with hzero hover
    · simp [hzero]
    · simp [hover]
    · simp [hzero, not_le.mp hover]

/-- An entry after a failure: the one that failed, or one that was there. -/
theorem lookup_failAt (h : (failAt settings states c.key choice nowMs).lookup k.key = some st) :
    (c = k ∧ st = failedState settings ((states.lookup k.key).getD {}) nowMs) ∨
    (c ≠ k ∧ states.lookup k.key = some st) := by
  rcases eq_or_ne c k with rfl | hne
  · rw [lookup_failAt_self] at h
    exact .inl ⟨rfl, (Option.some.inj h).symm⟩
  · exact .inr ⟨hne, lookup_of_lookup_failAt (Circuit.key_ne hne) h⟩

/-- An entry after a success: cleared, or one that was there. -/
theorem lookup_succeedAt (h : (succeedAt states c.key).lookup k.key = some st) :
    (c = k ∧ st = { failures := 0, bannedUntilMs := 0 }) ∨
    (c ≠ k ∧ states.lookup k.key = some st) := by
  rcases eq_or_ne c k with rfl | hne
  · have hcleared : ((succeedAt states c.key).lookup c.key).getD {} =
        { failures := 0, bannedUntilMs := 0 } := getD_succeedAt_self
    rw [h, Option.getD_some] at hcleared
    exact .inl ⟨rfl, hcleared⟩
  · rw [lookup_succeedAt_ne (Circuit.key_ne hne)] at h
    exact .inr ⟨hne, h⟩

end

/-! ### Bounds that hold in every run -/

/-- The counter of an entry and the end of its ban, against the history of its circuit. -/
structure EntryBounded (settings : Settings) (k : Circuit) (history : List Record)
    (st : BreakerState) : Prop where
  nonneg : 0 ≤ st.failures
  le_failures : st.failures ≤ failuresSince k history
  banned : st.bannedUntilMs ≠ 0 → settings.maxFailures ≤ st.failures ∧
    ∃ t, lastFailure k history = some t ∧ st.bannedUntilMs = t + settings.cooldownMs

/-- Every entry of the table is bounded by the history. -/
def Bounded (settings : Settings) (s : Session) : Prop :=
  ∀ k st, s.states.lookup k.key = some st → EntryBounded settings k s.history st

section

variable {settings : Settings} {k : Circuit} {history : List Record} {st : BreakerState}

theorem entryBounded_zero : EntryBounded settings k history { failures := 0, bannedUntilMs := 0 } where
  nonneg := le_rfl
  le_failures := Int.natCast_nonneg _
  banned h := absurd rfl h

/-- A record that leaves the circuit's failures as they are. -/
theorem EntryBounded.cons (h : EntryBounded settings k history st) {r : Record}
    (hcount : failuresSince k (r :: history) = failuresSince k history)
    (hlast : lastFailure k (r :: history) = lastFailure k history) :
    EntryBounded settings k (r :: history) st where
  nonneg := h.nonneg
  le_failures := by rw [hcount]; exact h.le_failures
  banned := by rw [hlast]; exact h.banned

theorem EntryBounded.failure (h : EntryBounded settings k history st) (nowMs : ℕ) :
    EntryBounded settings k (.failure k nowMs :: history) (failedState settings st nowMs) := by
  have hnonneg := h.nonneg
  have hle := h.le_failures
  unfold failedState
  split_ifs with hban
  · refine ⟨by dsimp only; omega, ?_, fun _ => ⟨hban, nowMs, ?_, rfl⟩⟩
    · rw [failuresSince, if_pos rfl]
      push_cast
      omega
    · rw [lastFailure, if_pos rfl]
  · refine ⟨by dsimp only; omega, ?_, fun hbanned => ?_⟩
    · rw [failuresSince, if_pos rfl]
      push_cast
      omega
    · -- a banned entry has reached the maximum already
      have hreached := (h.banned hbanned).1
      omega

theorem bounded_apply {s : Session} (h : Bounded settings s) (op : Op) :
    Bounded settings (s.apply settings op) := by
  intro k st hlookup
  cases op with
  | check c nowMs =>
    rcases lookup_checkAt hlookup with ⟨hold, -⟩ | ⟨rfl, rfl, -⟩
    · exact (h k st hold).cons rfl rfl
    · exact entryBounded_zero
  | failure c nowMs choice =>
    rcases lookup_failAt hlookup with ⟨rfl, rfl⟩ | ⟨hne, hold⟩
    · apply EntryBounded.failure
      rcases hold : s.states.lookup c.key with - | old
      · exact entryBounded_zero
      · exact h c old hold
    · exact (h k st hold).cons (if_neg hne) (if_neg hne)
  | success c nowMs =>
    rcases lookup_succeedAt hlookup with ⟨rfl, rfl⟩ | ⟨hne, hold⟩
    · exact entryBounded_zero
    · exact (h k st hold).cons (if_neg hne) rfl

end

/-! ### Exact entries while there is room -/

/-- The circuits of a history. -/
def circuits (history : List Record) : Finset Circuit := (history.map Record.circuit).toFinset

/-- The entry of a circuit is what its history says: the streak, and a ban once the streak has reached the
maximum. -/
structure EntryExact (settings : Settings) (k : Circuit) (history : List Record)
    (st : BreakerState) : Prop where
  failures : st.failures = streak settings k history
  banned : st.bannedUntilMs ≠ 0 ↔ settings.maxFailures ≤ streak settings k history
  until_ : settings.maxFailures ≤ streak settings k history →
    ∃ t, lastFailure k history = some t ∧ st.bannedUntilMs = t + settings.cooldownMs

/-- The table holds circuits of the history, with exact entries. -/
structure Exact (settings : Settings) (s : Session) : Prop where
  keys : ∀ key ∈ s.states, ∃ c ∈ circuits s.history, c.key = key
  entries : ∀ k, EntryExact settings k s.history ((s.states.lookup k.key).getD {})

section

variable {settings : Settings} {k c : Circuit} {history : List Record} {st : BreakerState}

theorem circuits_subset_cons (r : Record) (history : List Record) :
    circuits history ⊆ circuits (r :: history) := by
  intro c hc
  rw [circuits, List.map_cons, List.toFinset_cons]
  exact Finset.mem_insert_of_mem hc

theorem mem_circuits_cons (r : Record) (history : List Record) :
    r.circuit ∈ circuits (r :: history) := by
  rw [circuits, List.map_cons, List.toFinset_cons]
  exact Finset.mem_insert_self _ _

/-- A record that leaves the circuit's streak as it is. -/
theorem EntryExact.cons (h : EntryExact settings k history st) {r : Record}
    (hstreak : streak settings k (r :: history) = streak settings k history)
    (hlast : lastFailure k (r :: history) = lastFailure k history) :
    EntryExact settings k (r :: history) st where
  failures := by rw [hstreak]; exact h.failures
  banned := by rw [hstreak]; exact h.banned
  until_ := by rw [hstreak, hlast]; exact h.until_

/-- A cleared entry of a circuit without a streak. -/
theorem entryExact_zero (hmax : 1 ≤ settings.maxFailures) (hstreak : streak settings k history = 0) :
    EntryExact settings k history { failures := 0, bannedUntilMs := 0 } where
  failures := by rw [hstreak]; rfl
  banned := by
    rw [hstreak]
    simp only [ne_eq, not_true_eq_false, false_iff, not_le]
    exact hmax
  until_ h := by
    rw [hstreak] at h
    have : ((0 : ℕ) : ℤ) = 0 := rfl
    omega

theorem EntryExact.failure (hcool : 0 < settings.cooldownMs)
    (h : EntryExact settings k history st) (nowMs : ℕ) :
    EntryExact settings k (.failure k nowMs :: history) (failedState settings st nowMs) := by
  -- one more in the streak
  have hstreak : streak settings k (.failure k nowMs :: history) = streak settings k history + 1 :=
    if_pos rfl
  have hfailures := h.failures
  unfold failedState
  split_ifs with hban
  · have hreached : settings.maxFailures ≤ (streak settings k history + 1 : ℕ) := by
      push_cast
      omega
    refine ⟨?_, ?_, fun _ => ⟨nowMs, if_pos rfl, rfl⟩⟩
    · rw [hstreak, hfailures]
      push_cast
      rfl
    · rw [hstreak]
      have hpos : (nowMs : ℤ) + settings.cooldownMs ≠ 0 := by omega
      exact iff_of_true hpos hreached
  · -- below the maximum no ban was running before either
    have hnot : ¬ settings.maxFailures ≤ (streak settings k history + 1 : ℕ) := by
      push_cast
      omega
    refine ⟨?_, ?_, fun hreached => ?_⟩
    · rw [hstreak]
      dsimp only
      rw [hfailures]
      push_cast
      rfl
    · rw [hstreak]
      refine iff_of_false ?_ hnot
      rw [h.banned]
      omega
    · rw [hstreak] at hreached
      exact absurd hreached hnot

/-- The table has room for one more of at most `maxStates` circuits. -/
theorem makeRoom_eq_self {s : Session} (h : Exact settings s) {choice nowMs : ℕ}
    (hroom : (circuits (.failure c nowMs :: s.history)).card ≤ settings.maxStates) :
    makeRoom settings s.states c.key choice = s.states := by
  unfold makeRoom
  refine if_neg ?_
  rintro ⟨hfull, hnew⟩
  -- the keys of the table and the new one are keys of circuits in the history
  have hsub : insert c.key s.states.keys.toFinset ⊆
      (circuits (.failure c nowMs :: s.history)).image Circuit.key := by
    intro key hkey
    rcases Finset.mem_insert.mp hkey with rfl | hkey
    · exact Finset.mem_image_of_mem _ (mem_circuits_cons (.failure c nowMs) s.history)
    · obtain ⟨c', hc', rfl⟩ := h.keys key (AList.mem_keys.mpr (List.mem_toFinset.mp hkey))
      exact Finset.mem_image_of_mem _ (circuits_subset_cons _ _ hc')
  have hcard := (Finset.card_le_card hsub).trans Finset.card_image_le
  have hnotMem : c.key ∉ s.states.keys.toFinset := by
    rw [List.mem_toFinset, ← AList.mem_keys]
    exact hnew
  rw [Finset.card_insert_of_notMem hnotMem, List.toFinset_card_of_nodup s.states.keys_nodup,
    AList.keys, List.keys, List.length_map] at hcard
  omega

/-- A call adds no key but that of its circuit. -/
theorem mem_states_of_mem_apply {s : Session} {op : Op} {key : Bytes × EngineType}
    (hmem : key ∈ (s.apply settings op).states) :
    ∃ r, (s.apply settings op).history = r :: s.history ∧ (key = r.circuit.key ∨ key ∈ s.states) := by
  cases op with
  | check c nowMs =>
    exact ⟨_, rfl, UnorderedMap.eq_or_mem_of_lookup
      (fun hne st hst => (lookup_checkAt_ne hne).symm.trans hst) hmem⟩
  | failure c nowMs choice =>
    exact ⟨_, rfl,
      UnorderedMap.eq_or_mem_of_lookup (fun hne st hst => lookup_of_lookup_failAt hne hst) hmem⟩
  | success c nowMs =>
    exact ⟨_, rfl, UnorderedMap.eq_or_mem_of_lookup
      (fun hne st hst => (lookup_succeedAt_ne hne).symm.trans hst) hmem⟩

theorem keys_apply {s : Session} {op : Op} (h : ∀ key ∈ s.states, ∃ c ∈ circuits s.history, c.key = key) :
    ∀ key ∈ (s.apply settings op).states, ∃ c ∈ circuits (s.apply settings op).history, c.key = key := by
  intro key hmem
  obtain ⟨r, hhistory, rfl | hmem⟩ := mem_states_of_mem_apply hmem
  · exact ⟨r.circuit, hhistory ▸ mem_circuits_cons r s.history, rfl⟩
  · obtain ⟨c, hc, hck⟩ := h key hmem
    exact ⟨c, hhistory ▸ circuits_subset_cons r s.history hc, hck⟩

/-- What a check leaves of an exact entry. -/
theorem EntryExact.check (hmax : 1 ≤ settings.maxFailures) {states : Breakers} {nowMs : ℕ}
    {available : Bool} (h : EntryExact settings k history ((states.lookup k.key).getD {})) :
    EntryExact settings k (.check k nowMs available :: history)
      (((checkAt states k.key nowMs).2.lookup k.key).getD {}) := by
  -- a check ends the streak when the ban is over, and no other time
  have hstreak : streak settings k (.check k nowMs available :: history) =
      if settings.maxFailures ≤ streak settings k history ∧ cooledDown settings k history nowMs then 0
      else streak settings k history := by
    rw [streak]
    simp only [true_and]
  unfold checkAt
  rcases hlookup : states.lookup k.key with - | st
  · -- no entry, no streak
    rw [hlookup] at h
    have hzero : ¬ settings.maxFailures ≤ streak settings k history := by
      rw [← h.banned]
      simp
    dsimp only
    rw [hlookup]
    exact h.cons (by rw [hstreak, if_neg (fun hc => hzero hc.1)]) rfl
  · rw [hlookup] at h
    rw [Option.getD_some] at h
    dsimp only
    -- no ban is running, so the streak is short of the maximum
    split_ifs with hzero hover
    · have hnot : ¬ settings.maxFailures ≤ streak settings k history := by
        rw [← h.banned, not_not]
        exact hzero
      rw [hlookup]
      exact h.cons (by rw [hstreak, if_neg (fun hc => hnot hc.1)]) rfl
    · -- the ban is over
      have hreached := h.banned.mp hzero
      obtain ⟨t, hlast, huntil⟩ := h.until_ hreached
      have hcooled : cooledDown settings k history nowMs := by
        intro t' ht'
        obtain rfl := Option.some.inj (hlast.symm.trans ht')
        rw [← huntil]
        exact hover
      rw [AList.lookup_insert]
      exact entryExact_zero hmax (by rw [hstreak, if_pos ⟨hreached, hcooled⟩])
    -- the ban goes on
    · have hcooled : ¬ cooledDown settings k history nowMs := by
        intro hcooled
        obtain ⟨t, hlast, huntil⟩ := h.until_ (h.banned.mp hzero)
        exact hover (by rw [huntil]; exact hcooled t hlast)
      rw [hlookup]
      exact h.cons (by rw [hstreak, if_neg (fun hc => hcooled hc.2)]) rfl

/-- **Every call keeps the entries exact**, while the circuits fit into the table. -/
theorem exact_apply (hmax : 1 ≤ settings.maxFailures) (hcool : 0 < settings.cooldownMs) {s : Session}
    (h : Exact settings s) (op : Op)
    (hroom : (circuits (s.apply settings op).history).card ≤ settings.maxStates) :
    Exact settings (s.apply settings op) := by
  refine ⟨keys_apply h.keys, fun k => ?_⟩
  cases op with
  | check c nowMs =>
    -- a check of another circuit changes neither the entry nor the streak
    rcases eq_or_ne c k with rfl | hne
    · exact (h.entries c).check hmax
    · have hsame : (s.apply settings (.check c nowMs)).states.lookup k.key = s.states.lookup k.key :=
        lookup_checkAt_ne (Circuit.key_ne hne)
      rw [hsame]
      exact (h.entries k).cons (if_neg fun hc => hne hc.1) rfl
  | failure c nowMs choice =>
    have hstates : (s.apply settings (.failure c nowMs choice)).states =
        s.states.insert c.key (failedState settings ((s.states.lookup c.key).getD {}) nowMs) := by
      show failAt settings s.states c.key choice nowMs = _
      unfold failAt
      rw [makeRoom_eq_self h hroom]
    -- there was room, so the failure drops no other entry
    rw [hstates]
    rcases eq_or_ne c k with rfl | hne
    · rw [AList.lookup_insert, Option.getD_some]
      exact (h.entries c).failure hcool nowMs
    · rw [AList.lookup_insert_ne (Circuit.key_ne hne)]
      exact (h.entries k).cons (if_neg hne) (if_neg hne)
  -- a success takes its entry out, and the streak begins anew
  | success c nowMs =>
    rcases eq_or_ne c k with rfl | hne
    · have hclear : ((s.apply settings (.success c nowMs)).states.lookup c.key).getD {} =
          { failures := 0, bannedUntilMs := 0 } := getD_succeedAt_self
      rw [hclear]
      exact entryExact_zero hmax (if_pos rfl)
    · have hsame : (s.apply settings (.success c nowMs)).states.lookup k.key =
          s.states.lookup k.key := lookup_succeedAt_ne (Circuit.key_ne hne)
      rw [hsame]
      exact (h.entries k).cons (if_neg hne) rfl

end

/-! ### Runs -/

section

variable {settings : Settings} {start : ℕ} {ops : List Op} {s : Session}

theorem bounded_of_run (hrun : Run (Session.Step settings) { clockMs := start } ops s) :
    Bounded settings s := by
  refine hrun.invariant (fun s op s' h hs => ?_) ?_
  · obtain ⟨-, rfl⟩ := hs
    exact bounded_apply h op
  · intro k st hlookup
    cases hlookup

/-- The record of a call. -/
theorem history_apply (settings : Settings) (s : Session) (op : Op) :
    ∃ r : Record, (s.apply settings op).history = r :: s.history ∧ r.nowMs = op.nowMs ∧
      ∀ k t available, r = .check k t available → available = (checkAt s.states k.key t).1 := by
  cases op with
  | check c nowMs =>
    refine ⟨_, rfl, rfl, fun k t available heq => ?_⟩
    obtain ⟨rfl, rfl, rfl⟩ := Record.check.inj heq
    rfl
  | failure c nowMs choice => exact ⟨_, rfl, rfl, fun k t available heq => by cases heq⟩
  | success c nowMs => exact ⟨_, rfl, rfl, fun k t available heq => by cases heq⟩

/-- The history is in the order of its readings. -/
theorem pairwise_of_run (hrun : Run (Session.Step settings) { clockMs := start } ops s) :
    s.history.Pairwise (fun r r' => r'.nowMs ≤ r.nowMs) ∧ ∀ r ∈ s.history, r.nowMs ≤ s.clockMs := by
  have hstep : ∀ (s : Session) (op : Op) (s' : Session),
      (s.history.Pairwise (fun r r' => r'.nowMs ≤ r.nowMs) ∧ ∀ r ∈ s.history, r.nowMs ≤ s.clockMs) →
      Session.Step settings s op s' →
      s'.history.Pairwise (fun r r' => r'.nowMs ≤ r.nowMs) ∧
        ∀ r ∈ s'.history, r.nowMs ≤ s'.clockMs := by
    rintro s op s' ⟨hsorted, hle⟩ ⟨hclock, rfl⟩
    obtain ⟨r, hhistory, hnow, -⟩ := history_apply settings s op
    have hclock' : (s.apply settings op).clockMs = op.nowMs := by cases op <;> rfl
    rw [hhistory, hclock']
    -- the new record is at or after all others
    have hbefore : ∀ r' ∈ s.history, r'.nowMs ≤ op.nowMs := fun r' hr' => (hle r' hr').trans hclock
    refine ⟨List.pairwise_cons.mpr ⟨fun r' hr' => ?_, hsorted⟩, fun r' hr' => ?_⟩
    · rw [hnow]
      exact hbefore r' hr'
    · rcases List.mem_cons.mp hr' with rfl | hr'
      · exact hnow.le
      · exact hbefore r' hr'
  refine Run.invariant (I := fun s : Session => s.history.Pairwise (fun r r' => r'.nowMs ≤ r.nowMs) ∧
    ∀ r ∈ s.history, r.nowMs ≤ s.clockMs) hstep hrun ⟨List.Pairwise.nil, ?_⟩
  intro r hr
  cases hr

/-- What a run says of each check, from what it says of the last one. -/
theorem forall_check_of_run {P : Circuit → ℕ → Bool → List Record → Prop}
    (hrun : Run (Session.Step settings) { clockMs := start } ops s)
    (hlast : ∀ ops s, Run (Session.Step settings) { clockMs := start } ops s →
      ∀ k t, P k t (checkAt s.states k.key t).1 s.history) :
    ∀ newer k t available older, s.history = newer ++ .check k t available :: older →
      P k t available older := by
  induction hrun with
  | nil =>
    intro newer k t available older heq
    simp at heq
  | @snoc s s' ops op hrun hs ih =>
    obtain ⟨-, rfl⟩ := hs
    intro newer k t available older heq
    obtain ⟨r, hhistory, -, hcheck⟩ := history_apply settings s op
    rw [hhistory] at heq
    -- the check is the last record, or one of those before
    cases newer with
    | nil =>
      obtain ⟨hr, rfl⟩ := List.cons.inj heq
      rw [hcheck k t available hr]
      exact hlast ops s hrun k t
    | cons r' newer =>
      obtain ⟨-, htail⟩ := List.cons.inj heq
      exact ih newer k t available older htail

/-- **A circuit is reported unavailable only** after so many failures since its last success, and before
one cooldown after its last failure is over. -/
theorem unavailable_of_run (hrun : Run (Session.Step settings) { clockMs := start } ops s) :
    ∀ newer k (t : ℕ) available older, s.history = newer ++ .check k t available :: older →
      available = false → settings.maxFailures ≤ failuresSince k older ∧
        ∃ t₀, lastFailure k older = some t₀ ∧ t < t₀ + settings.cooldownMs := by
  refine forall_check_of_run (P := fun k t available older => available = false →
    settings.maxFailures ≤ failuresSince k older ∧
      ∃ t₀, lastFailure k older = some t₀ ∧ t < t₀ + settings.cooldownMs) hrun ?_
  intro ops s hrun k t hfalse
  obtain ⟨st, hlookup, hbanned, hlt⟩ := checkAt_eq_false_iff.mp hfalse
  have hentry := bounded_of_run hrun k st hlookup
  obtain ⟨hreached, t₀, hlast, huntil⟩ := hentry.banned hbanned
  exact ⟨hreached.trans hentry.le_failures, t₀, hlast, huntil ▸ hlt⟩

variable (hmax : 1 ≤ settings.maxFailures) (hcool : 0 < settings.cooldownMs)

include hmax hcool

theorem exact_of_run (hrun : Run (Session.Step settings) { clockMs := start } ops s)
    (hroom : (circuits s.history).card ≤ settings.maxStates) : Exact settings s := by
  induction hrun with
  | nil =>
    refine ⟨fun key hkey => ?_, fun k => ?_⟩
    · cases hkey
    · exact entryExact_zero hmax rfl
  | @snoc s s' ops op hrun hs ih =>
    obtain ⟨-, rfl⟩ := hs
    refine exact_apply hmax hcool (ih (le_trans ?_ hroom)) op hroom
    obtain ⟨r, hhistory, -, -⟩ := history_apply settings s op
    rw [hhistory]
    exact Finset.card_le_card (circuits_subset_cons r s.history)

/-- **The answer of a check** is what the history of its circuit says, while the circuits fit into the
table. -/
theorem check_iff_of_run (hrun : Run (Session.Step settings) { clockMs := start } ops s)
    (hroom : (circuits s.history).card ≤ settings.maxStates) :
    ∀ newer k (t : ℕ) available older, s.history = newer ++ .check k t available :: older →
      (available = false ↔ settings.maxFailures ≤ streak settings k older ∧
        ¬ cooledDown settings k older t) := by
  intro newer k t available older heq
  -- what a check answers is read off the table as it stood, which the history determines
  have hlaw := forall_check_of_run (P := fun k t available older =>
    (circuits older).card ≤ settings.maxStates → (available = false ↔
      settings.maxFailures ≤ streak settings k older ∧ ¬ cooledDown settings k older t)) hrun ?_
    newer k t available older heq
  · -- the circuits before a check are among those of the whole history
    refine hlaw (le_trans (Finset.card_le_card ?_) hroom)
    intro c hc
    rw [circuits, List.mem_toFinset] at hc ⊢
    rw [heq, List.map_append, List.map_cons]
    exact List.mem_append_right _ (List.mem_cons_of_mem _ hc)
  · intro ops s hrun k t hroom
    have hentry := (exact_of_run hmax hcool hrun hroom).entries k
    rw [checkAt_eq_false_iff]
    constructor
    · rintro ⟨st, hlookup, hbanned, hlt⟩
      rw [hlookup, Option.getD_some] at hentry
      have hreached := hentry.banned.mp hbanned
      obtain ⟨t₀, hlast, huntil⟩ := hentry.until_ hreached
      refine ⟨hreached, fun hcooled => ?_⟩
      have hle := hcooled t₀ hlast
      omega
    · rintro ⟨hreached, hcooled⟩
      obtain ⟨t₀, hlast, huntil⟩ := hentry.until_ hreached
      have hbanned := hentry.banned.mpr hreached
      rcases hlookup : s.states.lookup k.key with - | st
      · rw [hlookup] at hbanned
        exact absurd rfl hbanned
      · rw [hlookup, Option.getD_some] at hbanned huntil
        refine ⟨st, rfl, hbanned, ?_⟩
        by_contra hge
        refine hcooled fun t' ht' => ?_
        obtain rfl := Option.some.inj (hlast.symm.trans ht')
        omega

end

/-- Records during a cooldown, without a success: the streak goes on. -/
theorem streak_of_no_success {settings : Settings} {k : Circuit} {s₀ : ℕ} {older : List Record}
    (hreached : settings.maxFailures ≤ streak settings k (.failure k s₀ :: older))
    (middle : List Record) (hsuccess : ∀ t, .success k t ∉ middle)
    (hafter : ∀ r ∈ middle, s₀ ≤ r.nowMs)
    (hbefore : ∀ r ∈ middle, (r.nowMs : ℤ) < s₀ + settings.cooldownMs) :
    settings.maxFailures ≤ streak settings k (middle ++ .failure k s₀ :: older) ∧
      ∃ t₀, lastFailure k (middle ++ .failure k s₀ :: older) = some t₀ ∧ s₀ ≤ t₀ := by
  -- the induction is on the records since the failure
  induction middle with
  | nil => exact ⟨hreached, s₀, if_pos rfl, le_rfl⟩
  | cons r middle ih =>
    obtain ⟨hstreak, t₀, hlast, hle⟩ := ih (fun t ht => hsuccess t (List.mem_cons_of_mem _ ht))
      (fun r hr => hafter r (List.mem_cons_of_mem _ hr))
      (fun r hr => hbefore r (List.mem_cons_of_mem _ hr))
    have hr_after := hafter r List.mem_cons_self
    have hr_before := hbefore r List.mem_cons_self
    rw [List.cons_append]
    cases r with
    | check c t available =>
      -- the cooldown is not over when the check is made
      have hcooled : ¬ cooledDown settings k (middle ++ .failure k s₀ :: older) t := by
        intro hcooled
        have hover := hcooled t₀ hlast
        simp only [Record.nowMs] at hr_before
        omega
      refine ⟨?_, t₀, hlast, hle⟩
      rw [streak, if_neg fun hc => hcooled hc.2.2]
      exact hstreak
    -- one more failure of the circuit, or one of another
    | failure c t =>
      rcases eq_or_ne c k with rfl | hne
      · refine ⟨?_, t, if_pos rfl, hr_after⟩
        rw [streak, if_pos rfl]
        push_cast
        omega
      · refine ⟨?_, t₀, ?_, hle⟩
        · rw [streak, if_neg hne]
          exact hstreak
        · rw [lastFailure, if_neg hne]
          exact hlast
    | success c t =>
      have hne : c ≠ k := by
        rintro rfl
        exact hsuccess t List.mem_cons_self
      refine ⟨?_, t₀, hlast, hle⟩
      rw [streak, if_neg hne]
      exact hstreak

/-- **The law of the circuit breaker**, for every order of calls on any circuits.  A circuit is
unavailable only after `maxFailures` failures since its last success; while the table has room for every
circuit, it is unavailable for one cooldown after each failure that is at least the `maxFailures`-th of
its streak, unless a success comes; and never once a cooldown after its last failure is over. -/
theorem breaker_law {settings : Settings} {start : ℕ} {ops : List Op} {s : Session}
    (hmax : 1 ≤ settings.maxFailures) (hcool : 0 < settings.cooldownMs)
    (hrun : Run (Session.Step settings) { clockMs := start } ops s) :
    (∀ newer k t older, s.history = newer ++ .check k t false :: older →
      settings.maxFailures ≤ failuresSince k older) ∧
    ((circuits s.history).card ≤ settings.maxStates →
      ∀ newer k (t : ℕ) available middle (s₀ : ℕ) older,
        s.history = newer ++ .check k t available :: (middle ++ .failure k s₀ :: older) →
        settings.maxFailures ≤ streak settings k (.failure k s₀ :: older) →
        (∀ t', .success k t' ∉ middle) → t < s₀ + settings.cooldownMs → available = false) ∧
    ∀ newer k (t : ℕ) available older (t₀ : ℕ), s.history = newer ++ .check k t available :: older →
      lastFailure k older = some t₀ → t₀ + settings.cooldownMs ≤ t → available = true := by
  refine ⟨?_, ?_, ?_⟩
  -- a ban needs a full streak, whatever the table has lost
  · intro newer k t older heq
    exact (unavailable_of_run hrun newer k t false older heq rfl).1
  · intro hroom newer k t available middle s₀ older heq hreached hsuccess hlt
    -- the records between the failure and the check are made in this order
    obtain ⟨hsorted, -⟩ := pairwise_of_run hrun
    rw [heq] at hsorted
    have htail := (List.pairwise_cons.mp (List.pairwise_append.mp hsorted).2.1)
    have hmiddle := (List.pairwise_append.mp htail.2).2.2
    have hafter : ∀ r ∈ middle, s₀ ≤ r.nowMs :=
      fun r hr => hmiddle r hr (.failure k s₀) List.mem_cons_self
    have hbefore : ∀ r ∈ middle, (r.nowMs : ℤ) < s₀ + settings.cooldownMs := by
      intro r hr
      have hle : r.nowMs ≤ t := htail.1 r (List.mem_append_left _ hr)
      omega
    obtain ⟨hstreak, t₀, hlast, hle⟩ := streak_of_no_success hreached middle hsuccess hafter hbefore
    refine (check_iff_of_run hmax hcool hrun hroom newer k t available _ heq).mpr ⟨hstreak, ?_⟩
    intro hcooled
    have hover := hcooled t₀ hlast
    omega
  -- a running ban would end behind this check
  · intro newer k t available older t₀ heq hlast hover
    by_contra hfalse
    obtain ⟨-, t₁, hlast', hlt⟩ :=
      unavailable_of_run hrun newer k t available older heq (Bool.not_eq_true _ ▸ hfalse)
    obtain rfl := Option.some.inj (hlast.symm.trans hlast')
    omega

/-- HTTP/3 for a host. -/
def sampleCircuit : Circuit := ⟨ByteString.ascii "h", 443, 1, .http3⟩

/-- Three failures, and a check one millisecond before the cooldown is over. -/
def sampleOps : List Op :=
  [.failure sampleCircuit 10 0, .failure sampleCircuit 20 0, .failure sampleCircuit 30 0,
    .check sampleCircuit 60029]

theorem breaker_law_sampleOps : ∃ s, Run (Session.Step {}) { clockMs := 1 } sampleOps s ∧
    s.history = [.check sampleCircuit 60029 false, .failure sampleCircuit 30,
      .failure sampleCircuit 20, .failure sampleCircuit 10] ∧
    ({} : Settings).maxFailures ≤ failuresSince sampleCircuit [.failure sampleCircuit 30,
      .failure sampleCircuit 20, .failure sampleCircuit 10] := by
  have hrun : Run (Session.Step {}) { clockMs := 1 } sampleOps
      (sampleOps.foldl (Session.apply {}) { clockMs := 1 }) := by
    have h₁ : Run (Session.Step {}) { clockMs := 1 } [.failure sampleCircuit 10 0] _ :=
      .snoc .nil ⟨by decide, rfl⟩
    have h₂ : Run (Session.Step {}) { clockMs := 1 } (sampleOps.take 2) _ :=
      .snoc h₁ ⟨by decide, rfl⟩
    have h₃ : Run (Session.Step {}) { clockMs := 1 } (sampleOps.take 3) _ :=
      .snoc h₂ ⟨by decide, rfl⟩
    exact .snoc h₃ ⟨by decide, rfl⟩
  have hhistory : (sampleOps.foldl (Session.apply {}) { clockMs := 1 }).history =
      [.check sampleCircuit 60029 false, .failure sampleCircuit 30, .failure sampleCircuit 20,
        .failure sampleCircuit 10] := by
    decide +kernel
  have hlaw := (breaker_law (by decide) (by decide) hrun).1 [] sampleCircuit 60029 _ hhistory
  exact ⟨_, hrun, hhistory, hlaw⟩

end AsterNet.ProtocolSelector
