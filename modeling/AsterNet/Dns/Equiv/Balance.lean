import AsterNet.Dns.Equiv.Sources
import AsterNet.Dns.Equiv.Eviction
import AsterNet.Lib.Population

/-!
# The resources of the resolver

Lookup slots are taken before the lookup thread is created, and given back by the thread, or by the call
when the thread cannot be created.  `Shift` says what each section does to the slots and to the tables,
`Balanced` that the counter is the number of the slots held: by the threads that run, and by the calls that
are about to create one.

* `resources_of_run`: the limits and the balance, for every interleaving.
* `exists_run_before_create`: between taking a slot and creating the thread the counter is ahead of the
  threads.
-/

namespace AsterNet.Dns

open UnorderedMap

/-! ### The tables -/

/-- A change of the state that keeps the configuration, the counter and the limits of the tables. -/
structure State.Keeps (st st' : State) : Prop where
  config : st'.config = st.config
  activeLookups : st'.activeLookups = st.activeLookups
  cache : 1 ≤ st.config.maxCacheEntries → st.cache.entries.length ≤ st.config.maxCacheEntries →
    st'.cache.entries.length ≤ st.config.maxCacheEntries
  health : 1 ≤ st.config.maxHealthEntries → st.health.entries.length ≤ st.config.maxHealthEntries →
    st'.health.entries.length ≤ st.config.maxHealthEntries

namespace State.Keeps

variable {st : State}

theorem refl : st.Keeps st := ⟨rfl, rfl, fun _ h => h, fun _ h => h⟩

theorem storeEntry (nowMs : ℤ) (evict : ℕ) (key : Bytes) (addresses : List IpResult) :
    st.Keeps (storeEntry nowMs evict key addresses st) := by
  by_cases hnil : addresses = []
  · rw [hnil]
    exact refl
  · obtain ⟨entry, hentry⟩ := storeEntry_of_ne_nil hnil nowMs evict key st
    rw [hentry]
    exact ⟨rfl, rfl, fun hpos hle => length_insert_makeRoom_le hpos hle evict key entry, fun _ h => h⟩

theorem length_eraseIf_le (p : Bytes → Bool) (m : AList fun _ : Bytes => CacheEntry) :
    (eraseIf p m).entries.length ≤ m.entries.length :=
  List.length_filter_le ..

theorem invalidate (host : Bytes) : st.Keeps (invalidate host st) := by
  unfold Dns.invalidate
  split_ifs
  · exact ⟨rfl, rfl, fun _ _ => Nat.zero_le _, fun _ h => h⟩
  · exact ⟨rfl, rfl, fun _ h => (length_eraseIf_le _ _).trans h, fun _ h => h⟩

theorem setHttpdnsLookup (httpdnsLookup : Bool) : st.Keeps (setHttpdnsLookup httpdnsLookup st) :=
  ⟨rfl, rfl, fun _ _ => Nat.zero_le _, fun _ h => h⟩

theorem setBackupIps (inet : Inet) (host : Bytes) (addresses : List IpResult) :
    st.Keeps (setBackupIps inet host addresses st) :=
  ⟨rfl, rfl, fun _ h => (length_eraseIf_le _ _).trans h, fun _ h => h⟩

end State.Keeps

/-- A loop that keeps its choice or takes the element it is at ends with one of them. -/
theorem exists_foldl_eq_some {α : Type} {pick : Option α → α → Option α}
    (hpick : ∀ o e, pick o e = some e ∨ o.isSome = true ∧ pick o e = o) (l : List α) (o : Option α)
    (hne : o.isSome = true ∨ l ≠ []) :
    ∃ e, l.foldl pick o = some e ∧ (o = some e ∨ e ∈ l) := by
  induction l generalizing o with
  | nil =>
    obtain ⟨e, rfl⟩ := Option.isSome_iff_exists.mp (hne.resolve_right fun h => h rfl)
    exact ⟨e, rfl, .inl rfl⟩
  | cons e l ih =>
    rw [List.foldl_cons]
    rcases hpick o e with htake | ⟨hsome, hkeep⟩
    · obtain ⟨e', heq, hmem⟩ := ih (pick o e) (.inl (htake ▸ rfl))
      refine ⟨e', heq, .inr ?_⟩
      rcases hmem with hmem | hmem
      · exact Option.some.inj (htake.symm.trans hmem) ▸ List.mem_cons_self
      · exact List.mem_cons_of_mem e hmem
    · rw [hkeep]
      obtain ⟨e', heq, hmem⟩ := ih o (.inl hsome)
      exact ⟨e', heq, hmem.imp_right (List.mem_cons_of_mem e)⟩

theorem exists_foldl_map_eq_some {α β : Type} {pick : Option α → α → Option α}
    (hpick : ∀ o e, pick o e = some e ∨ o.isSome = true ∧ pick o e = o) {l : List α} (hne : l ≠ [])
    (g : α → β) : ∃ e ∈ l, (l.foldl pick none).map g = some (g e) := by
  obtain ⟨e, heq, hmem⟩ := exists_foldl_eq_some hpick l none (.inr hne)
  refine ⟨e, hmem.resolve_left (by simp), ?_⟩
  rw [heq]
  rfl

/-- In a table with entries there is an oldest one. -/
theorem exists_oldestHealth (order : ℕ) {health : AList fun _ : Bytes => Health}
    (hpos : 0 < health.entries.length) : ∃ key ∈ health, oldestHealth order health = some key := by
  have hne : health.entries.rotate order ≠ [] := by
    rw [Ne, List.rotate_eq_nil_iff]
    exact List.ne_nil_of_length_pos hpos
  obtain ⟨e, hmem, heq⟩ : ∃ e ∈ health.entries.rotate order,
      oldestHealth order health = some e.1 := by
    refine exists_foldl_map_eq_some (fun o e => ?_) hne _
    cases o with
    | none => exact .inl rfl
    | some o =>
      dsimp only
      split_ifs
      · exact .inl rfl
      · exact .inr ⟨rfl, rfl⟩
  exact ⟨e.1, AList.mem_keys.mpr (List.mem_map_of_mem (List.mem_rotate.mp hmem)), heq⟩

/-- A report keeps the health table within its limit. -/
theorem keeps_reportConnectionResult (nowMs : ℤ) (order : ℕ) (host ip : Bytes) (networkEpoch : ℕ)
    (success : Bool) (rttMs : ℤ) (st : State) :
    st.Keeps (reportConnectionResult nowMs order host ip networkEpoch success rttMs st) := by
  unfold reportConnectionResult
  by_cases hempty : (host.isEmpty || ip.isEmpty) = true
  · rw [if_pos hempty]
    exact .refl
  rw [if_neg hempty]
  refine ⟨rfl, rfl, fun _ h => h, fun hpos hle => ?_⟩
  dsimp only
  generalize healthKey host ip networkEpoch = key
  by_cases hevict : st.config.maxHealthEntries ≤ st.health.entries.length ∧ key ∉ st.health
  · -- the oldest entry leaves
    obtain ⟨oldest, hmem, holdest⟩ := exists_oldestHealth order (hpos.trans hevict.1)
    simp only [if_pos hevict, holdest]
    refine (length_insert_le _ _ _).trans ?_
    have herase := length_erase_of_mem hmem
    omega
  · simp only [if_neg hevict]
    by_cases hkey : key ∈ st.health
    · rw [length_insert_of_mem hkey]
      exact hle
    · rw [length_insert_of_notMem hkey]
      by_contra hlt
      exact hevict ⟨by omega, hkey⟩

namespace Threads

open Population Transition

variable {ι : Type} [DecidableEq ι] {inet : Inet} {m m' : Machine ι} {h h' : List Event} {t : ι}

/-! ### The slots -/

/-- The call holds a slot, and its lookup thread is not there yet. -/
def IsCreating (call : Option (Stage × Call)) : Prop := ∃ tier c, call = some (.creating tier, c)

/-- The call waits for its lookup thread. -/
def IsWaiting (call : Option (Stage × Call)) : Prop := ∃ tier c, call = some (.waiting tier, c)

/-- The call holds no slot. -/
def HoldsNone (call : Option (Stage × Call)) : Prop := ¬ IsCreating call ∧ ¬ IsWaiting call

/-- The calls that are about to create a lookup thread. -/
noncomputable def Machine.creating (m : Machine ι) : ℕ∞ := population IsCreating m.calls

/-- The lookup threads started and not yet finished: those a call waits for, those nobody waits for any
more, and those that have answered and are about to give their slot back. -/
noncomputable def Machine.running (m : Machine ι) : ℕ∞ :=
  population IsWaiting m.calls + m.abandoned + m.answered

theorem isCreating_creating (tier : Tier) (c : Call) : IsCreating (some (.creating tier, c)) :=
  ⟨tier, c, rfl⟩

theorem isWaiting_waiting (tier : Tier) (c : Call) : IsWaiting (some (.waiting tier, c)) :=
  ⟨tier, c, rfl⟩

theorem not_isWaiting_creating (tier : Tier) (c : Call) : ¬ IsWaiting (some (.creating tier, c)) := by
  rintro ⟨tier', c', heq⟩
  cases heq

theorem not_isCreating_waiting (tier : Tier) (c : Call) : ¬ IsCreating (some (.waiting tier, c)) := by
  rintro ⟨tier', c', heq⟩
  cases heq

theorem holdsNone_none : HoldsNone none := by
  constructor <;> (rintro ⟨tier, c, heq⟩; cases heq)

theorem holdsNone_some {stage : Stage} {c : Call} (hcreating : ∀ tier, stage ≠ .creating tier)
    (hwaiting : ∀ tier, stage ≠ .waiting tier) : HoldsNone (some (stage, c)) := by
  constructor
  · rintro ⟨tier, c', heq⟩
    exact hcreating tier (congrArg Prod.fst (Option.some.inj heq))
  · rintro ⟨tier, c', heq⟩
    exact hwaiting tier (congrArg Prod.fst (Option.some.inj heq))

theorem holdsNone_leave (c : Call) (st : State) (tier : Tier) (passage : Passage) :
    HoldsNone (some (c.leave inet st tier passage)) := by
  cases tier with
  | httpDns => exact holdsNone_some (by simp) (by simp)
  | localDns => exact holdsNone_some (by simp) (by simp)

/-- What a section does to the slots and to the tables. -/
inductive Shift (m m' : Machine ι) : Prop
  | quiet (hcalls : m'.calls = m.calls) (habandoned : m'.abandoned = m.abandoned)
      (hanswered : m'.answered = m.answered) (hst : m.st.Keeps m'.st)
  | moved (t : ι) (call : Option (Stage × Call)) (hold : HoldsNone (m.calls t)) (hnew : HoldsNone call)
      (hcalls : m'.calls = Function.update m.calls t call) (habandoned : m'.abandoned = m.abandoned)
      (hanswered : m'.answered = m.answered) (hst : m.st.Keeps m'.st)
  | taken (t : ι) (tier : Tier) (c : Call) (hold : HoldsNone (m.calls t))
      (hfree : m.st.activeLookups < m.st.config.maxActiveLookups)
      (heq : m' = (m.withState { m.st with activeLookups := m.st.activeLookups + 1 }).goto t
        (some (.creating tier, c)))
  | created (t : ι) (tier : Tier) (c : Call) (hold : m.calls t = some (.creating tier, c))
      (heq : m' = m.goto t (some (.waiting tier, c)))
  | givenBack (t : ι) (call : Option (Stage × Call)) (hold : IsCreating (m.calls t))
      (hnew : HoldsNone call)
      (heq : m' = (m.withState { m.st with activeLookups := m.st.activeLookups - 1 }).goto t call)
  | answered (t : ι) (call : Option (Stage × Call)) (hold : IsWaiting (m.calls t)) (hnew : HoldsNone call)
      (heq : m' = { m with answered := m.answered + 1 }.goto t call)
  | gaveUp (t : ι) (call : Option (Stage × Call)) (hold : IsWaiting (m.calls t)) (hnew : HoldsNone call)
      (heq : m' = { m with abandoned := m.abandoned + 1 }.goto t call)
  | answeredLate (hpos : 0 < m.abandoned)
      (heq : m' = { m with abandoned := m.abandoned - 1, answered := m.answered + 1 })
  | ended (hpos : 0 < m.answered)
      (heq : m' = { m with
        answered := m.answered - 1
        st := { m.st with activeLookups := m.st.activeLookups - 1 } })

theorem activeLookups_of_refusal_eq_none {c : Call} {tier : Tier} {nowMs : ℤ} {config : Config}
    {active : ℕ} (hnone : c.refusal tier nowMs config active = none) :
    active < config.maxActiveLookups := by
  unfold Call.refusal at hnone
  split_ifs at hnone with haddresses habsent hlate hoffline hfull
  exact not_le.mp hfull

theorem shift_of_act {a : Act ι} {es : List Event} (hact : m.act inet h a = some (m', es)) :
    Shift m m' := by
  cases a with
  | begin t host networkEpoch timeoutMs startedMs finishedMs =>
    rw [Machine.act] at hact
    split at hact
    · case h_1 hcall =>
      unfold Machine.begin at hact
      dsimp only at hact
      split at hact
      · cases hact
        exact .quiet rfl rfl rfl .refl
      · cases hact
        refine .moved t _ ?_ (holdsNone_some (by simp) (by simp)) rfl rfl rfl .refl
        rw [hcall]
        exact holdsNone_none
    · cases hact
  | look t nowMs =>
    rw [Machine.act] at hact
    split at hact
    · case h_1 c hcall =>
      cases hact
      refine .moved t _ ?_ (holdsNone_some (by simp) (by simp)) rfl rfl rfl .refl
      rw [hcall]
      exact holdsNone_some (by simp) (by simp)
    · cases hact
  | readQuality t =>
    rw [Machine.act] at hact
    split at hact
    · case h_1 c hcall =>
      cases hact
      refine .moved t _ ?_ (holdsNone_some (by simp) (by simp)) rfl rfl rfl .refl
      rw [hcall]
      exact holdsNone_some (by simp) (by simp)
    · cases hact
  | gate t nowMs =>
    rw [Machine.act] at hact
    split at hact
    · case h_1 tier c hcall =>
      have hold : HoldsNone (m.calls t) := by
        rw [hcall]
        exact holdsNone_some (by simp) (by simp)
      unfold Machine.gate at hact
      split at hact
      · cases hact
        exact .moved t _ hold (holdsNone_leave c m.st tier _) rfl rfl rfl .refl
      -- the gate lets through only when there is a slot
      · case h_2 hrefusal =>
        cases hact
        exact .taken t tier c hold (activeLookups_of_refusal_eq_none hrefusal) rfl
    · cases hact
  | create t created =>
    rw [Machine.act] at hact
    split at hact
    · case h_1 tier c hcall =>
      unfold Machine.create at hact
      -- the thread is created, or the slot goes back
      split_ifs at hact
      · cases hact
        exact .created t tier c hcall rfl
      · cases hact
        exact .givenBack t _ (hcall ▸ isCreating_creating tier c) (holdsNone_leave c m.st tier _) rfl
    · cases hact
  | answerHttpDns t addresses =>
    rw [Machine.act] at hact
    split at hact
    · case h_1 c hcall =>
      cases hact
      exact .answered t _ (hcall ▸ isWaiting_waiting _ c) (holdsNone_leave _ m.st _ _) rfl
    · cases hact
  | answerLocalDns t raw =>
    rw [Machine.act] at hact
    split at hact
    · case h_1 c hcall =>
      cases hact
      exact .answered t _ (hcall ▸ isWaiting_waiting _ c) (holdsNone_leave _ m.st _ _) rfl
    · cases hact
  | giveUp t nowMs =>
    rw [Machine.act] at hact
    split at hact
    · case h_1 tier c hcall =>
      split_ifs at hact
      cases hact
      exact .gaveUp t _ (hcall ▸ isWaiting_waiting tier c) (holdsNone_leave c m.st tier _) rfl
    · cases hact
  -- nobody waits for this lookup any more, so only its thread has the slot
  | answerLate =>
    rw [Machine.act] at hact
    split_ifs at hact with hpos
    cases hact
    exact .answeredLate hpos rfl
  | endLookup =>
    rw [Machine.act] at hact
    split_ifs at hact with hpos
    cases hact
    exact .ended hpos rfl
  | write t nowMs evict =>
    rw [Machine.act] at hact
    split at hact
    · case h_1 c hcall =>
      cases hact
      refine .moved t _ ?_ (holdsNone_some (by simp) (by simp)) rfl rfl rfl (.storeEntry ..)
      rw [hcall]
      exact holdsNone_some (by simp) (by simp)
    · cases hact
  | finish t nowMs =>
    rw [Machine.act] at hact
    split at hact
    · case h_1 c hcall =>
      cases hact
      refine .moved t none ?_ holdsNone_none rfl rfl rfl .refl
      rw [hcall]
      exact holdsNone_some (by simp) (by simp)
    · cases hact
  | invalidate host =>
    cases hact
    exact .quiet rfl rfl rfl (.invalidate host)
  | setHttpdnsLookup httpdnsLookup =>
    cases hact
    exact .quiet rfl rfl rfl (.setHttpdnsLookup httpdnsLookup)
  | setBackupIps host addresses =>
    cases hact
    exact .quiet rfl rfl rfl (.setBackupIps inet host addresses)
  | report nowMs order host ip networkEpoch success rttMs =>
    cases hact
    exact .quiet rfl rfl rfl (keeps_reportConnectionResult ..)
  | qualityChange snapshot =>
    cases hact
    exact .quiet rfl rfl rfl ⟨rfl, rfl, fun _ h => h, fun _ h => h⟩
  | networkChange networkEpoch =>
    cases hact
    exact .quiet rfl rfl rfl ⟨rfl, rfl, fun _ h => h, fun _ _ => Nat.zero_le _⟩

/-! ### The balance -/

/-- The counter is the number of slots held. -/
def Balanced (m : Machine ι) : Prop := ∃ creating waiting,
  Counted IsCreating m.calls creating ∧ Counted IsWaiting m.calls waiting ∧
    m.st.activeLookups = creating + waiting + m.abandoned + m.answered

omit [DecidableEq ι] in
theorem Balanced.activeLookups_eq (hm : Balanced m) :
    (m.st.activeLookups : ℕ∞) = m.running + m.creating := by
  obtain ⟨creating, waiting, hcreating, hwaiting, heq⟩ := hm
  rw [Machine.running, Machine.creating, hcreating, hwaiting, heq]
  push_cast
  ring

/-- **The balance after one section.** -/
theorem balanced_of_shift (hm : Balanced m) (hshift : Shift m m') : Balanced m' := by
  obtain ⟨creating, waiting, hcreating, hwaiting, heq⟩ := hm
  cases hshift with
  | quiet hcalls habandoned hanswered hst =>
    refine ⟨creating, waiting, ?_, ?_, ?_⟩
    · rwa [hcalls]
    · rwa [hcalls]
    · rw [hst.activeLookups, habandoned, hanswered, heq]
  | moved t call hold hnew hcalls habandoned hanswered hst =>
    refine ⟨creating, waiting, ?_, ?_, ?_⟩
    · rw [hcalls]
      exact hcreating.same (iff_of_false hnew.1 hold.1)
    · rw [hcalls]
      exact hwaiting.same (iff_of_false hnew.2 hold.2)
    · rw [hst.activeLookups, habandoned, hanswered, heq]
  -- the call that was gated holds a slot while its lookup is created
  | taken t tier c hold hfree hm' =>
    subst hm'
    refine ⟨creating + 1, waiting, hcreating.enter hold.1 (isCreating_creating tier c),
      hwaiting.same (iff_of_false (not_isWaiting_creating tier c) hold.2), ?_⟩
    show m.st.activeLookups + 1 = creating + 1 + waiting + m.abandoned + m.answered
    omega
  -- the slot goes from the creator to the waiter
  | created t tier c hold hm' =>
    subst hm'
    obtain ⟨k, rfl, hleft⟩ := hcreating.leave (hold ▸ isCreating_creating tier c)
      (not_isCreating_waiting tier c)
    refine ⟨k, waiting + 1, hleft,
      hwaiting.enter (hold ▸ not_isWaiting_creating tier c) (isWaiting_waiting tier c), ?_⟩
    show m.st.activeLookups = k + (waiting + 1) + m.abandoned + m.answered
    omega
  -- the lookup was not created, and the slot is free again
  | givenBack t call hold hnew hm' =>
    subst hm'
    have hnot : ¬ IsWaiting (m.calls t) := by
      obtain ⟨tier, c, hcall⟩ := hold
      exact hcall ▸ not_isWaiting_creating tier c
    obtain ⟨k, rfl, hleft⟩ := hcreating.leave hold hnew.1
    refine ⟨k, waiting, hleft, hwaiting.same (iff_of_false hnew.2 hnot), ?_⟩
    show m.st.activeLookups - 1 = k + waiting + m.abandoned + m.answered
    omega
  -- the caller is gone, and the answered lookup holds the slot until it ends
  | answered t call hold hnew hm' =>
    subst hm'
    have hnot : ¬ IsCreating (m.calls t) := by
      obtain ⟨tier, c, hcall⟩ := hold
      exact hcall ▸ not_isCreating_waiting tier c
    obtain ⟨k, rfl, hleft⟩ := hwaiting.leave hold hnew.2
    refine ⟨creating, k, hcreating.same (iff_of_false hnew.1 hnot), hleft, ?_⟩
    show m.st.activeLookups = creating + k + m.abandoned + (m.answered + 1)
    omega
  -- the caller gives up, and the lookup it leaves behind holds the slot
  | gaveUp t call hold hnew hm' =>
    subst hm'
    have hnot : ¬ IsCreating (m.calls t) := by
      obtain ⟨tier, c, hcall⟩ := hold
      exact hcall ▸ not_isCreating_waiting tier c
    obtain ⟨k, rfl, hleft⟩ := hwaiting.leave hold hnew.2
    refine ⟨creating, k, hcreating.same (iff_of_false hnew.1 hnot), hleft, ?_⟩
    show m.st.activeLookups = creating + k + (m.abandoned + 1) + m.answered
    omega
  | answeredLate hpos hm' =>
    subst hm'
    refine ⟨creating, waiting, hcreating, hwaiting, ?_⟩
    show m.st.activeLookups = creating + waiting + (m.abandoned - 1) + (m.answered + 1)
    omega
  | ended hpos hm' =>
    subst hm'
    refine ⟨creating, waiting, hcreating, hwaiting, ?_⟩
    show m.st.activeLookups - 1 = creating + waiting + m.abandoned + (m.answered - 1)
    omega

/-- The tables and the counter are within their limits. -/
structure Within (config : Config) (m : Machine ι) : Prop where
  sameConfig : m.st.config = config
  cache : m.st.cache.entries.length ≤ config.maxCacheEntries
  health : m.st.health.entries.length ≤ config.maxHealthEntries
  active : m.st.activeLookups ≤ config.maxActiveLookups

/-- **The limits after one section.** -/
theorem within_of_shift {config : Config} (hcache : 1 ≤ config.maxCacheEntries)
    (hhealth : 1 ≤ config.maxHealthEntries) (hm : Within config m) (hshift : Shift m m') :
    Within config m' := by
  obtain ⟨rfl, hcacheLe, hhealthLe, hactive⟩ := hm
  have hkeeps : m.st.Keeps m'.st → Within m.st.config m' := fun hst =>
    ⟨hst.config, hst.cache hcache hcacheLe, hst.health hhealth hhealthLe,
      le_of_eq_of_le hst.activeLookups hactive⟩
  cases hshift with
  | quiet _ _ _ hst => exact hkeeps hst
  | moved _ _ _ _ _ _ _ hst => exact hkeeps hst
  | taken _ _ _ _ hfree hm' =>
    subst hm'
    exact ⟨rfl, hcacheLe, hhealthLe, hfree⟩
  | created _ _ _ _ hm' | answered _ _ _ _ hm' | gaveUp _ _ _ _ hm' | answeredLate _ hm' =>
    subst hm'
    exact ⟨rfl, hcacheLe, hhealthLe, hactive⟩
  | givenBack _ _ _ _ hm' | ended _ hm' =>
    subst hm'
    exact ⟨rfl, hcacheLe, hhealthLe, (Nat.sub_le _ _).trans hactive⟩

omit [DecidableEq ι] in
theorem balanced_init (config : Config) (httpdnsLookup : Bool) :
    Balanced (init ι config httpdnsLookup).1 := by
  refine ⟨0, 0, counted_zero fun t => ?_, counted_zero fun t => ?_, rfl⟩
  · exact holdsNone_none.1
  · exact holdsNone_none.2

theorem Steps.shift {a : Act ι} (hs : Steps inet (m, h) a (m', h')) : Shift m m' := by
  obtain ⟨⟨m₁, es⟩, hact, heq⟩ := Option.map_eq_some_iff.mp hs
  obtain ⟨rfl, -⟩ := Prod.mk.inj heq
  exact shift_of_act hact

/-- The sections that give a slot back. -/
def Act.GivesBack : Act ι → Prop
  | .create _ created => created = false
  | .endLookup => True
  | _ => False

/-- **No slot is given back twice**: the counter is positive where a slot is given back. -/
theorem activeLookups_of_givesBack (hm : Balanced m) {a : Act ι} (hback : a.GivesBack)
    (hs : Steps inet (m, h) a (m', h')) : m'.st.activeLookups + 1 = m.st.activeLookups := by
  -- the balance says who holds the slots, and the one given back is among them
  obtain ⟨creating, waiting, hcreating, -, heq⟩ := hm
  obtain ⟨⟨m₁, es⟩, hact, hm'⟩ := Option.map_eq_some_iff.mp hs
  obtain ⟨rfl, -⟩ := Prod.mk.inj hm'
  cases a with
  | create t created =>
    obtain rfl : created = false := hback
    rw [Machine.act] at hact
    split at hact
    · case h_1 tier c hcall =>
      unfold Machine.create at hact
      cases hact
      obtain ⟨k, rfl, -⟩ := hcreating.leave (v := none) (hcall ▸ isCreating_creating tier c)
        holdsNone_none.1
      show m.st.activeLookups - 1 + 1 = m.st.activeLookups
      omega
    · cases hact
  | endLookup =>
    rw [Machine.act] at hact
    split_ifs at hact with hpos
    cases hact
    have hpos : 0 < m.answered := hpos
    show m.st.activeLookups - 1 + 1 = m.st.activeLookups
    omega
  | _ => exact hback.elim

theorem balanced_of_run {config : Config} {httpdnsLookup : Bool} {acts : List (Act ι)} {s : Trace ι}
    (hrun : Run (Steps inet) (init ι config httpdnsLookup) acts s) : Balanced s.1 := by
  refine hrun.invariant (I := fun s => Balanced s.1) ?_ (balanced_init config httpdnsLookup)
  rintro ⟨m, h⟩ a ⟨m', h'⟩ hm hs
  exact balanced_of_shift hm hs.shift

/-- **Bounded and balanced**, for every interleaving. -/
theorem resources_of_run {config : Config} (hcache : 1 ≤ config.maxCacheEntries)
    (hhealth : 1 ≤ config.maxHealthEntries) {httpdnsLookup : Bool} {acts : List (Act ι)} {s : Trace ι}
    (hrun : Run (Steps inet) (init ι config httpdnsLookup) acts s) :
    s.1.st.cache.entries.length ≤ config.maxCacheEntries ∧
    s.1.st.health.entries.length ≤ config.maxHealthEntries ∧
    (s.1.st.activeLookups : ℕ∞) = s.1.running + s.1.creating ∧
    s.1.st.activeLookups ≤ config.maxActiveLookups ∧
    (∀ a s', a.GivesBack → Steps inet s a s' → s'.1.st.activeLookups + 1 = s.1.st.activeLookups) ∧
    (s.1.running = 0 → s.1.creating = 0 → s.1.st.activeLookups = 0) := by
  have hinit : Within config (init ι config httpdnsLookup).1 :=
    ⟨rfl, Nat.zero_le _, Nat.zero_le _, Nat.zero_le _⟩
  have hwithin : Within config s.1 := by
    refine hrun.invariant (I := fun s => Within config s.1) ?_ hinit
    rintro ⟨m, h⟩ a ⟨m', h'⟩ hm hs
    exact within_of_shift hcache hhealth hm hs.shift
  have hm := balanced_of_run hrun
  refine ⟨hwithin.cache, hwithin.health, hm.activeLookups_eq, hwithin.active,
    fun a s' hback hs => activeLookups_of_givesBack hm hback hs, fun hrunning hcreating => ?_⟩
  have heq := hm.activeLookups_eq
  rw [hrunning, hcreating, add_zero] at heq
  exact_mod_cast heq

/-- HttpDNS hangs until the deadline of the call; its thread stays behind. -/
def abandons : List (Act ℕ) := begins 0 ++ [.gate 0 0, .create 0 true, .giveUp 0 3000]

theorem resources_of_run_abandons :
    (after abandons).1.st.cache.entries.length ≤ 128 ∧ (after abandons).1.st.health.entries.length ≤ 512 ∧
    ((after abandons).1.st.activeLookups : ℕ∞) = (after abandons).1.running + (after abandons).1.creating ∧
    (after abandons).1.st.activeLookups ≤ 4 ∧
    (∀ a s', a.GivesBack → Steps .plain (after abandons) a s' →
      s'.1.st.activeLookups + 1 = (after abandons).1.st.activeLookups) ∧
    ((after abandons).1.running = 0 → (after abandons).1.creating = 0 →
      (after abandons).1.st.activeLookups = 0) :=
  resources_of_run (by decide) (by decide) (run_after (by decide +kernel))

/-- A call takes a slot for HttpDNS. -/
def takes : List (Act ℕ) := begins 0 ++ [.gate 0 0]

/-- Before the thread is created, its slot is taken already. -/
theorem exists_run_before_create : ∃ acts s, Run (Steps Inet.plain) (init ℕ {} true) acts s ∧
    s.1.st.activeLookups = 1 ∧ s.1.running = 0 := by
  have hrun : Run (Steps Inet.plain) start takes (after takes) := run_after (by decide +kernel)
  have hone : (after takes).1.st.activeLookups = 1 := by decide +kernel
  refine ⟨takes, after takes, hrun, hone, ?_⟩
  obtain ⟨creating, waiting, hcreating, hwaiting, heq⟩ := balanced_of_run hrun
  -- the call that holds the slot is about to create its thread
  have hstage : ((after takes).1.calls 0).map Prod.fst = some (.creating .httpDns) := by decide +kernel
  obtain ⟨⟨_, c⟩, hcall, rfl⟩ := Option.map_eq_some_iff.mp hstage
  obtain ⟨k, rfl, -⟩ := hcreating.leave (v := none) (hcall ▸ isCreating_creating .httpDns c)
    holdsNone_none.1
  rw [hone] at heq
  obtain ⟨rfl, habandoned, hanswered⟩ :
      waiting = 0 ∧ (after takes).1.abandoned = 0 ∧ (after takes).1.answered = 0 := by omega
  rw [Machine.running, hwaiting, habandoned, hanswered]
  rfl

end Threads

end AsterNet.Dns
