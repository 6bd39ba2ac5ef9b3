import AsterNet.Orchestrator.Coalescer

/-!
# Coalescing is safe under every interleaving

`Inv` ties the map, the flight objects and the phases of the threads together: an entry of the map is a
leader that has registered and not published, and a flight object is complete exactly from its
publication on.  `Justifies` says of each event what must have happened before it; in particular what a
follower returns.

* `inv_of_steps`: every step keeps `Inv`.
* `safe_of_run`: what holds in every state that any number of threads reach.
-/

namespace AsterNet.Orchestrator

namespace Coalescer

open Transition

variable {ι : Type}

namespace Event

/-- The flight an event is about. -/
def flight : Event ι → ℕ
  | .registered _ flight .. | .joined _ flight .. | .ended _ flight _ | .published _ flight ..
  | .returned _ flight .. => flight

/-- The event publishes this flight. -/
def publishes (flight : ℕ) : Event ι → Bool
  | .published _ flight' .. => flight' = flight
  | _ => false

/-- The event registers a flight. -/
def registers : Event ι → Bool
  | .registered .. => true
  | _ => false

end Event

/-- A thread registered a flight under a key. -/
def Registered (h : List (Event ι)) (t : ι) (flight : ℕ) (key : Bytes) : Prop :=
  ∃ context, .registered t flight key context ∈ h

/-- A thread joined a flight by a key. -/
def Joined (h : List (Event ι)) (t : ι) (flight : ℕ) (key : Bytes) : Prop :=
  ∃ context, .joined t flight key context ∈ h

theorem Registered.append {h : List (Event ι)} {t : ι} {flight : ℕ} {key : Bytes}
    (hr : Registered h t flight key) (es : List (Event ι)) : Registered (h ++ es) t flight key := by
  obtain ⟨context, hmem⟩ := hr
  exact ⟨context, List.mem_append_left _ hmem⟩

theorem registered_append_singleton {h : List (Event ι)} {t : ι} {flight : ℕ} {key : Bytes}
    {e : Event ι} : Registered (h ++ [e]) t flight key ↔
      Registered h t flight key ∨ ∃ context, .registered t flight key context = e := by
  simp only [Registered, List.mem_append, List.mem_singleton, exists_or]

theorem Joined.append {h : List (Event ι)} {t : ι} {flight : ℕ} {key : Bytes}
    (hj : Joined h t flight key) (es : List (Event ι)) : Joined (h ++ es) t flight key := by
  obtain ⟨context, hmem⟩ := hj
  exact ⟨context, List.mem_append_left _ hmem⟩

/-- What must have happened before an event. -/
def Justifies (before : List (Event ι)) : Event ι → Prop
  | .registered _ flight _ _ => ∀ e ∈ before, e.flight ≠ flight
  | .joined _ flight key _ => ∃ u, Registered before u flight key
  | .ended t flight _ => ∃ key, Registered before t flight key
  | .published t flight key result response dnsCacheHit =>
    Registered before t flight key ∧ (∀ e ∈ before, e.publishes flight = false) ∧
      ∃ ending, .ended t flight ending ∈ before ∧ ending.settle.1 = result ∧
        ending.settle.2.response = response ∧ ending.settle.2.context.dnsCacheHit = dnsCacheHit
  | .returned t flight result call =>
    ∃ key, Joined before t flight key ∧
      ((result = .errTimeout ∧ call.response.errCode = .errTimeout ∧
          call.response.failureStage = "dedup_wait") ∨
        ∃ u, .published u flight key result call.response call.context.dnsCacheHit ∈ before)

/-- The map, the flight objects and the phases of the threads. -/
structure Inv (m : Machine ι) (h : List (Event ι)) : Prop where
  lookup_iff : ∀ key f, m.flights.lookup key = some f ↔ ∃ t, m.Leads t f key
  room : m.flights.entries.length ≤ m.maxFlights
  /-- A flight has one leader. -/
  leader : ∀ t u f key key', m.Leads t f key → m.Leads u f key' → t = u
  registered : ∀ t f key, m.Leads t f key → Registered h t f key
  /-- A leader with a result has ended its operation. -/
  ended : ∀ t f key result call, m.phase t = .publishing f key result call →
    ∃ ending, .ended t f ending ∈ h ∧ ending.settle = (result, call)
  joined : ∀ t f deadlineMs call, m.phase t = .following f deadlineMs call →
    ∃ key, Joined h t f key
  /-- A complete flight holds what was published. -/
  complete : ∀ f, (m.flight f).complete = true → ∃ u key,
    .published u f key (m.flight f).result (m.flight f).response (m.flight f).dnsCacheHit ∈ h
  count : ∀ t f key, Registered h t f key →
    h.countP (·.publishes f) = if m.Leads t f key then 0 else 1
  fresh : ∀ e ∈ h, e.flight < m.heap.length
  justified : Justified Justifies h

/-! ### What the history says -/

section

variable {m : Machine ι} {h : List (Event ι)} {t u : ι} {f : ℕ} {key key' : Bytes}

/-- A flight is registered once. -/
theorem registered_unique (hj : Justified Justifies h) (ht : Registered h t f key)
    (hu : Registered h u f key') : t = u ∧ key = key' := by
  obtain ⟨context, ht⟩ := ht
  obtain ⟨context', hu⟩ := hu
  obtain ⟨before, after, rfl, hfresh⟩ := hj.exists_of_mem ht
  obtain ⟨before', after', heq, hfresh'⟩ := hj.exists_of_mem hu
  -- the later of the two registrations would not be fresh
  rcases List.append_eq_append_iff.mp heq with ⟨mid, rfl, hmid⟩ | ⟨mid, rfl, hmid⟩
  · rcases mid with - | ⟨e, mid⟩
    · simp only [List.nil_append, List.cons.injEq, Event.registered.injEq] at hmid
      exact ⟨hmid.1.1, hmid.1.2.2.1⟩
    · obtain ⟨rfl, -⟩ := List.cons.inj hmid
      exact absurd rfl (hfresh' _ (List.mem_append_right _ List.mem_cons_self))
  · rcases mid with - | ⟨e, mid⟩
    · simp only [List.nil_append, List.cons.injEq, Event.registered.injEq] at hmid
      exact ⟨hmid.1.1.symm, hmid.1.2.2.1.symm⟩
    · obtain ⟨rfl, -⟩ := List.cons.inj hmid
      exact absurd rfl (hfresh _ (List.mem_append_right _ List.mem_cons_self))

/-- A leader has not published. -/
theorem Inv.not_publishes (hi : Inv m h) (hl : m.Leads t f key) :
    ∀ e ∈ h, e.publishes f = false := by
  have hcount := hi.count t f key (hi.registered t f key hl)
  rw [if_pos hl, List.countP_eq_zero] at hcount
  intro e he
  exact Bool.eq_false_iff.mpr (hcount e he)

theorem Inv.lt_length_of_registered (hi : Inv m h) (hr : Registered h t f key) :
    f < m.heap.length := by
  obtain ⟨context, hmem⟩ := hr
  exact hi.fresh _ hmem

theorem Inv.lt_length (hi : Inv m h) (hl : m.Leads t f key) : f < m.heap.length :=
  hi.lt_length_of_registered (hi.registered t f key hl)

/-- **One leader of a key.** -/
theorem Inv.leads_unique (hi : Inv m h) {g : ℕ} (ht : m.Leads t f key) (hu : m.Leads u g key) :
    t = u ∧ f = g := by
  have hf := (hi.lookup_iff key f).mpr ⟨t, ht⟩
  have hg := (hi.lookup_iff key g).mpr ⟨u, hu⟩
  obtain rfl : f = g := Option.some.inj (hf.symm.trans hg)
  exact ⟨hi.leader t u f key key ht hu, rfl⟩

/-- Nothing was published for a flight that does not exist. -/
theorem Inv.countP_publishes_eq_zero (hi : Inv m h) :
    h.countP (·.publishes m.heap.length) = 0 := by
  rw [List.countP_eq_zero]
  intro e he hpub
  have hlt := hi.fresh e he
  cases e with
  | published _ flight =>
    have heq : flight = m.heap.length := of_decide_eq_true hpub
    exact absurd hlt (by simp [Event.flight, heq])
  | _ => cases hpub

theorem leads_of_publishing {result : Result} {call : Call}
    (hphase : m.phase t = .publishing f key result call) :
    m.Leads t f key := by
  rw [Machine.Leads, hphase, Phase.leads]

theorem leads_of_leading {call : Call} (hphase : m.phase t = .leading f key call) :
    m.Leads t f key := by
  rw [Machine.Leads, hphase, Phase.leads]

/-- A thread leads one flight, under one key. -/
theorem Leads.unique {g : ℕ} (hl : m.Leads t f key) (hl' : m.Leads t g key') :
    f = g ∧ key = key' := by
  unfold Machine.Leads at hl hl'
  rw [hl] at hl'
  exact Prod.mk.inj (Option.some.inj hl')

/-- Beside a thread that does not come to publish, the others have what they had. -/
theorem Inv.ended_append (hi : Inv m h) {m' : Machine ι} (hother : ∀ u, u ≠ t → m'.phase u = m.phase u)
    (hself : ∀ f key result call, m'.phase t ≠ .publishing f key result call) (es : List (Event ι)) :
    ∀ u f key result call, m'.phase u = .publishing f key result call →
      ∃ ending, .ended u f ending ∈ h ++ es ∧ ending.settle = (result, call) := by
  intro u f key result call hphase
  have hne : u ≠ t := by
    rintro rfl
    exact hself f key result call hphase
  rw [hother u hne] at hphase
  obtain ⟨ending, hmem, hsettle⟩ := hi.ended u f key result call hphase
  exact ⟨ending, List.mem_append_left _ hmem, hsettle⟩

theorem Inv.joined_append (hi : Inv m h) {m' : Machine ι}
    (hother : ∀ u, u ≠ t → m'.phase u = m.phase u)
    (hself : ∀ f deadlineMs call, m'.phase t ≠ .following f deadlineMs call) (es : List (Event ι)) :
    ∀ u f deadlineMs call, m'.phase u = .following f deadlineMs call →
      ∃ key, Joined (h ++ es) u f key := by
  intro u f deadlineMs call hphase
  have hne : u ≠ t := by
    rintro rfl
    exact hself f deadlineMs call hphase
  rw [hother u hne] at hphase
  obtain ⟨key, hmem⟩ := hi.joined u f deadlineMs call hphase
  exact ⟨key, hmem.append es⟩

/-! ### Steps that keep the map and the flights -/

/-- An event that neither registers nor publishes. -/
theorem Inv.append (hi : Inv m h) {e : Event ι} (hj : Justifies h e) (hf : e.flight < m.heap.length)
    (hr : e.registers = false) (hp : ∀ f, e.publishes f = false) : Inv m (h ++ [e]) where
  lookup_iff := hi.lookup_iff
  room := hi.room
  leader := hi.leader
  registered t f key hl := (hi.registered t f key hl).append [e]
  ended t f key result call hphase := by
    obtain ⟨ending, hmem, hsettle⟩ := hi.ended t f key result call hphase
    exact ⟨ending, List.mem_append_left _ hmem, hsettle⟩
  joined t f deadlineMs call hphase := by
    obtain ⟨key, hmem⟩ := hi.joined t f deadlineMs call hphase
    exact ⟨key, hmem.append [e]⟩
  complete f hcomplete := by
    obtain ⟨u, key, hmem⟩ := hi.complete f hcomplete
    exact ⟨u, key, List.mem_append_left _ hmem⟩
  count t f key hreg := by
    rcases registered_append_singleton.mp hreg with hreg | ⟨context, rfl⟩
    · rw [List.countP_append, hi.count t f key hreg, List.countP_singleton, hp f]
      simp
    · cases hr
  fresh e' hmem := by
    rcases List.mem_append.mp hmem with hmem | hmem
    · exact hi.fresh e' hmem
    · obtain rfl := List.mem_singleton.mp hmem
      exact hf
  justified := justified_append_singleton_iff.mpr ⟨hi.justified, hj⟩

/-- Taking or releasing the mutex. -/
theorem Inv.setOwner (hi : Inv m h) (owner : Option ι) : Inv { m with owner := owner } h :=
  ⟨hi.lookup_iff, hi.room, hi.leader, hi.registered, hi.ended, hi.joined, hi.complete, hi.count,
    hi.fresh, hi.justified⟩

variable [DecidableEq ι]

/-- A thread moves on without beginning or ending to lead. -/
theorem Inv.goto (hi : Inv m h) {p : Phase} (hleads : p.leads = (m.phase t).leads)
    (hended : ∀ f key result call, p = .publishing f key result call →
      ∃ ending, .ended t f ending ∈ h ∧ ending.settle = (result, call))
    (hjoined : ∀ f deadlineMs call, p = .following f deadlineMs call → ∃ key, Joined h t f key) :
    Inv (m.goto t p) h := by
  -- nobody begins or ends to lead
  have hsame : ∀ u f key, (m.goto t p).Leads u f key ↔ m.Leads u f key := by
    intro u f key
    unfold Machine.Leads
    rcases eq_or_ne u t with rfl | hne
    · rw [Machine.goto_phase_self, hleads]
    · rw [Machine.goto_phase_of_ne m hne]
  constructor
  case lookup_iff =>
    intro key f
    simp only [Machine.goto_flights, hsame]
    exact hi.lookup_iff key f
  case room => exact hi.room
  case leader =>
    intro u v f key key' hu hv
    exact hi.leader u v f key key' ((hsame u f key).mp hu) ((hsame v f key').mp hv)
  case registered =>
    intro u f key hu
    exact hi.registered u f key ((hsame u f key).mp hu)
  case ended =>
    intro u f key result call hphase
    rcases eq_or_ne u t with rfl | hne
    · rw [Machine.goto_phase_self] at hphase
      exact hended f key result call hphase
    · rw [Machine.goto_phase_of_ne m hne] at hphase
      exact hi.ended u f key result call hphase
  case joined =>
    intro u f deadlineMs call hphase
    rcases eq_or_ne u t with rfl | hne
    · rw [Machine.goto_phase_self] at hphase
      exact hjoined f deadlineMs call hphase
    · rw [Machine.goto_phase_of_ne m hne] at hphase
      exact hi.joined u f deadlineMs call hphase
  case complete => exact hi.complete
  case count =>
    intro u f key hmem
    simp only [hsame]
    exact hi.count u f key hmem
  case fresh => exact hi.fresh
  case justified => exact hi.justified

/-! ### Registering -/

theorem phase_register_of_ne (hne : u ≠ t) (call : Call) :
    (m.register t key call).phase u = m.phase u := by
  unfold Machine.register
  rw [Machine.goto_phase_of_ne _ hne]
  rfl

theorem flight_register (call : Call) (f : ℕ) : (m.register t key call).flight f = m.flight f := by
  show (m.heap ++ [({} : FlightState)]).getD f {} = m.heap.getD f {}
  rcases lt_or_ge f m.heap.length with hlt | hge
  · rw [List.getD_append _ _ _ _ hlt]
  · rw [List.getD_append_right _ _ _ _ hge, List.getD_eq_default _ _ hge]
    rcases f - m.heap.length with - | n <;> rfl

theorem leads_register {call : Call} (hphase : m.phase t = .joining call) :
    (m.register t key call).Leads u f key' ↔
      (u = t ∧ f = m.heap.length ∧ key' = key) ∨ m.Leads u f key' := by
  rcases eq_or_ne u t with rfl | hne
  · have hnew : (m.register u key call).Leads u f key' ↔ m.heap.length = f ∧ key = key' := by
      simp [Machine.Leads, Machine.register, Phase.leads, Machine.unlock]
    have hold : ¬ m.Leads u f key' := by simp [Machine.Leads, hphase, Phase.leads]
    rw [hnew, or_iff_left hold, eq_comm, @eq_comm _ key]
    simp
  · unfold Machine.Leads
    rw [phase_register_of_ne hne]
    simp [hne]

/-- A thread registers a flight under a key the map does not have. -/
theorem Inv.register (hi : Inv m h) {call : Call} (hphase : m.phase t = .joining call)
    (hlookup : m.flights.lookup key = none) (hroom : m.flights.entries.length < m.maxFlights) :
    Inv (m.register t key call) (h ++ [.registered t m.heap.length key call.context]) := by
  have hflights : (m.register t key call).flights = m.flights.insert key m.heap.length := rfl
  constructor
  case lookup_iff =>
    intro k f
    simp only [hflights, leads_register hphase]
    rcases eq_or_ne k key with rfl | hne
    · rw [AList.lookup_insert]
      constructor
      · intro hf
        exact ⟨t, .inl ⟨rfl, (Option.some.inj hf).symm, rfl⟩⟩
      · rintro ⟨u, ⟨-, rfl, -⟩ | hl⟩
        · rfl
        · rw [(hi.lookup_iff k f).mpr ⟨u, hl⟩] at hlookup
          cases hlookup
    · rw [AList.lookup_insert_ne hne, hi.lookup_iff]
      simp [hne]
  case room =>
    rw [hflights, AList.entries_insert_of_notMem (AList.lookup_eq_none.mp hlookup)]
    exact hroom
  case leader =>
    intro u v f k k' hu hv
    -- an old flight is not the new one
    rcases (leads_register hphase).mp hu with ⟨hut, hf, -⟩ | hu
    · rcases (leads_register hphase).mp hv with ⟨hvt, -, -⟩ | hv
      · rw [hut, hvt]
      · exact absurd (hi.lt_length hv) hf.ge.not_gt
    · rcases (leads_register hphase).mp hv with ⟨-, hf, -⟩ | hv
      · exact absurd (hi.lt_length hu) hf.ge.not_gt
      · exact hi.leader u v f k k' hu hv
  case registered =>
    intro u f k hu
    rcases (leads_register hphase).mp hu with ⟨rfl, rfl, rfl⟩ | hu
    · exact ⟨call.context, List.mem_append_right _ List.mem_cons_self⟩
    · exact (hi.registered u f k hu).append _
  case ended =>
    exact hi.ended_append (fun u hne => phase_register_of_ne hne call) (by simp [Machine.register]) _
  case joined =>
    exact hi.joined_append (fun u hne => phase_register_of_ne hne call) (by simp [Machine.register]) _
  case complete =>
    intro f hcomplete
    rw [flight_register] at hcomplete ⊢
    obtain ⟨u, k, hmem⟩ := hi.complete f hcomplete
    exact ⟨u, k, List.mem_append_left _ hmem⟩
  case count =>
    intro u f k hreg
    have hsame : (h ++ [Event.registered t m.heap.length key call.context]).countP
        (·.publishes f) = h.countP (·.publishes f) := by
      rw [List.countP_append, List.countP_singleton]
      rfl
    rw [hsame]
    rcases registered_append_singleton.mp hreg with hreg | ⟨context, heq⟩
    · have hlt := hi.lt_length_of_registered hreg
      rw [hi.count u f k hreg]
      exact if_congr (by rw [leads_register hphase]; simp [hlt.ne]) rfl rfl
    · obtain ⟨rfl, rfl, rfl, -⟩ := Event.registered.inj heq
      rw [hi.countP_publishes_eq_zero,
        if_pos ((leads_register hphase).mpr (.inl ⟨rfl, rfl, rfl⟩))]
  case fresh =>
    intro e hmem
    have hlength : (m.register t key call).heap.length = m.heap.length + 1 := by
      simp [Machine.register, Machine.unlock]
    rw [hlength]
    rcases List.mem_append.mp hmem with hmem | hmem
    · exact (hi.fresh e hmem).trans (Nat.lt_succ_self _)
    · obtain rfl := List.mem_singleton.mp hmem
      exact Nat.lt_succ_self _
  case justified =>
    refine justified_append_singleton_iff.mpr ⟨hi.justified, ?_⟩
    intro e he
    exact (hi.fresh e he).ne

/-! ### Publishing -/

section

variable {result : Result} {call : Call}

theorem phase_publish_of_ne (hne : u ≠ t) :
    (m.publish t f key result call).phase u = m.phase u := by
  unfold Machine.publish
  rw [Machine.goto_phase_of_ne _ hne]
  rfl

theorem leads_publish {g : ℕ} :
    (m.publish t f key result call).Leads u g key' ↔ u ≠ t ∧ m.Leads u g key' := by
  rcases eq_or_ne u t with rfl | hne
  · simp [Machine.Leads, Machine.publish, Phase.leads]
  · unfold Machine.Leads
    rw [phase_publish_of_ne hne]
    simp [hne]

theorem flight_publish_self (hlt : f < m.heap.length) :
    (m.publish t f key result call).flight f =
      { complete := true
        result
        response := call.response
        dnsCacheHit := call.context.dnsCacheHit } := by
  show (m.heap.set f _).getD f {} = _
  rw [List.getD_eq_getElem?_getD, List.getElem?_set, if_pos rfl, if_pos hlt]
  rfl

theorem flight_publish_of_ne {g : ℕ} (hne : g ≠ f) :
    (m.publish t f key result call).flight g = m.flight g := by
  show (m.heap.set f _).getD g {} = m.heap.getD g {}
  rw [List.getD_eq_getElem?_getD, List.getElem?_set, if_neg hne.symm, List.getD_eq_getElem?_getD]

/-- A leader publishes. -/
theorem Inv.publish (hi : Inv m h) (hphase : m.phase t = .publishing f key result call) :
    Inv (m.publish t f key result call)
      (h ++ [.published t f key result call.response call.context.dnsCacheHit]) := by
  have hleader := leads_of_publishing hphase
  have hflights : (m.publish t f key result call).flights = m.flights.erase key := rfl
  constructor
  -- the key leaves the table with its leader
  case lookup_iff =>
    intro k g
    simp only [hflights, leads_publish]
    rcases eq_or_ne k key with rfl | hne
    · rw [AList.lookup_erase]
      constructor
      · intro hg
        cases hg
      · -- the key had one leader, and it no longer leads
        rintro ⟨u, hu, hl⟩
        exact absurd (hi.leads_unique hl hleader).1 hu
    · rw [AList.lookup_erase_ne hne, hi.lookup_iff]
      constructor
      · rintro ⟨u, hl⟩
        refine ⟨u, ?_, hl⟩
        rintro rfl
        exact hne (Leads.unique hleader hl).2.symm
      · rintro ⟨u, -, hl⟩
        exact ⟨u, hl⟩
  case room => exact (UnorderedMap.length_erase_le m.flights key).trans hi.room
  case leader =>
    intro u v g k k' hu hv
    exact hi.leader u v g k k' (leads_publish.mp hu).2 (leads_publish.mp hv).2
  case registered =>
    intro u g k hu
    exact (hi.registered u g k (leads_publish.mp hu).2).append _
  case ended =>
    exact hi.ended_append (fun u hne => phase_publish_of_ne hne) (by simp [Machine.publish]) _
  case joined =>
    exact hi.joined_append (fun u hne => phase_publish_of_ne hne) (by simp [Machine.publish]) _
  -- the flight published here is complete by this event, the others as before
  case complete =>
    intro g hcomplete
    rcases eq_or_ne g f with rfl | hne
    · rw [flight_publish_self (hi.lt_length hleader)]
      exact ⟨t, key, List.mem_append_right _ List.mem_cons_self⟩
    · rw [flight_publish_of_ne hne] at hcomplete ⊢
      obtain ⟨u, k, hmem⟩ := hi.complete g hcomplete
      exact ⟨u, k, List.mem_append_left _ hmem⟩
  case count =>
    intro u g k hreg
    have hreg' : Registered h u g k := by simpa [Registered] using hreg
    rw [List.countP_append, hi.count u g k hreg', List.countP_singleton]
    rcases eq_or_ne g f with rfl | hne
    · -- the flight published here
      obtain ⟨rfl, rfl⟩ := registered_unique hi.justified hreg' (hi.registered t g key hleader)
      have hthis : Event.publishes g
          (.published u g k result call.response call.context.dnsCacheHit) = true :=
        decide_eq_true rfl
      rw [if_pos hleader, if_neg fun hl => (leads_publish.mp hl).1 rfl, if_pos hthis]
    · -- another flight keeps its leader and its count
      have hiff : (m.publish t f key result call).Leads u g k ↔ m.Leads u g k := by
        rw [leads_publish, and_iff_right_iff_imp]
        rintro hl rfl
        exact hne (Leads.unique hleader hl).1.symm
      have hother : Event.publishes g
          (.published t f key result call.response call.context.dnsCacheHit) = false :=
        decide_eq_false hne.symm
      rw [hother, if_congr hiff rfl rfl]
      simp
  case fresh =>
    intro e hmem
    have hlength : (m.publish t f key result call).heap.length = m.heap.length := by
      simp [Machine.publish, Machine.unlock]
    rw [hlength]
    rcases List.mem_append.mp hmem with hmem | hmem
    · exact hi.fresh e hmem
    · obtain rfl := List.mem_singleton.mp hmem
      exact hi.lt_length hleader
  case justified =>
    refine justified_append_singleton_iff.mpr ⟨hi.justified, ?_⟩
    obtain ⟨ending, hmem, hsettle⟩ := hi.ended t f key result call hphase
    refine ⟨hi.registered t f key hleader, hi.not_publishes hleader, ending, hmem, ?_⟩
    rw [hsettle]
    exact ⟨rfl, rfl, rfl⟩

end

end

/-! ### Steps and runs -/

section

variable {m : Machine ι} {h : List (Event ι)}

/-- What a follower does with its flight: it goes on waiting, gives up, or returns what was
published. -/
theorem Inv.checked (hi : Inv m h) (nowMs f : ℕ) (deadlineMs : Option ℤ) (call : Call) :
    (∃ deadlineMs', m.checked nowMs f deadlineMs call = .following f deadlineMs' call) ∨
    ∃ result call', m.checked nowMs f deadlineMs call = .returned result call' ∧
      ((result = .errTimeout ∧ call'.response.errCode = .errTimeout ∧
          call'.response.failureStage = "dedup_wait") ∨
        ∃ u key, .published u f key result call'.response call'.context.dnsCacheHit ∈ h) := by
  unfold Machine.checked
  by_cases hcomplete : (m.flight f).complete = true
  · rw [if_pos hcomplete]
    obtain ⟨u, key, hmem⟩ := hi.complete f hcomplete
    exact .inr ⟨_, _, rfl, .inr ⟨u, key, hmem⟩⟩
  · rw [if_neg hcomplete]
    rcases deadlineMs with - | deadlineMs
    · exact .inl ⟨_, rfl⟩
    · dsimp only
      split_ifs
      · exact .inr ⟨_, _, rfl, .inl ⟨rfl, rfl, rfl⟩⟩
      · exact .inl ⟨_, rfl⟩

end

theorem inv_init (maxFlights : ℕ) : Inv (Machine.init maxFlights : Machine ι) [] where
  lookup_iff key f := by simp [Machine.init, Machine.Leads, Phase.leads]
  room := Nat.zero_le _
  leader t u f key key' hl := by simp [Machine.init, Machine.Leads, Phase.leads] at hl
  registered t f key hl := by simp [Machine.init, Machine.Leads, Phase.leads] at hl
  ended t f key result call hphase := by cases hphase
  joined t f deadlineMs call hphase := by cases hphase
  complete f hcomplete := by simp [Machine.flight, Machine.init] at hcomplete
  count t f key hreg := by
    obtain ⟨context, hmem⟩ := hreg
    cases hmem
  fresh e hmem := by cases hmem
  justified := justified_nil

section

variable [DecidableEq ι] {m m' : Machine ι} {h h' : List (Event ι)} {t : ι}

/-- A thread that neither led nor follows. -/
theorem Inv.leave (hi : Inv m h) (hleads : (m.phase t).leads = none) {p : Phase}
    (hp : p.leads = none) (hfollowing : ∀ f deadlineMs call, p ≠ .following f deadlineMs call) :
    Inv (m.goto t p) h := by
  apply hi.goto
  · rw [hp, hleads]
  · rintro f key result call rfl
    cases hp
  · intro f deadlineMs call heq
    exact absurd heq (hfollowing f deadlineMs call)

theorem Inv.join (hi : Inv m h) {call : Call} (hphase : m.phase t = .joining call) :
    Inv (m.join t call).1 (h ++ (m.join t call).2) := by
  have hleads : (m.phase t).leads = none := by rw [hphase]; rfl
  rcases hlookup : m.flights.lookup (dedupKey call.context) with - | f
  · rcases le_or_gt m.maxFlights m.flights.entries.length with hfull | hroom
    · rw [Machine.join_of_full m hlookup hfull, List.append_nil]
      exact hi.leave hleads rfl fun _ _ _ => Phase.noConfusion
    · rw [Machine.join_of_room m hlookup hroom]
      exact hi.register hphase hlookup hroom
  · rw [Machine.join_of_found m hlookup]
    -- the flight in the map has a leader, so it was registered
    obtain ⟨u, hl⟩ := (hi.lookup_iff _ _).mp hlookup
    have hreg := hi.registered u f _ hl
    have happend := hi.append (e := .joined t f (dedupKey call.context) call.context) ⟨u, hreg⟩
      (hi.lt_length_of_registered hreg) rfl fun _ => rfl
    have hmem : Joined (h ++ [.joined t f (dedupKey call.context) call.context]) t f
        (dedupKey call.context) := ⟨call.context, List.mem_append_right _ List.mem_cons_self⟩
    apply (happend.setOwner none).goto
    · exact hleads.symm
    · intro f' key result call' heq
      cases heq
    · intro f' deadlineMs call' heq
      obtain ⟨rfl, -, -⟩ := Phase.following.inj heq
      exact ⟨_, hmem⟩

theorem Inv.finish (hi : Inv m h) {f : ℕ} {key : Bytes} {call : Call} (ending : Ending)
    (hphase : m.phase t = .leading f key call) :
    Inv (m.goto t (.publishing f key ending.settle.1 ending.settle.2)) (h ++ [.ended t f ending]) := by
  have hleader := leads_of_leading hphase
  have happend := hi.append (e := .ended t f ending) ⟨key, hi.registered t f key hleader⟩
    (hi.lt_length hleader) rfl fun _ => rfl
  apply happend.goto
  · exact hleader.symm
  · intro f' key' result call' heq
    obtain ⟨rfl, rfl, rfl, rfl⟩ := Phase.publishing.inj heq
    exact ⟨ending, List.mem_append_right _ List.mem_cons_self, rfl⟩
  · intro f' deadlineMs call' heq
    cases heq

theorem Inv.check (hi : Inv m h) (nowMs : ℕ) {f : ℕ} {deadlineMs : Option ℤ} {call : Call}
    (hphase : m.phase t = .following f deadlineMs call) :
    Inv (m.check t nowMs f deadlineMs call).1 (h ++ (m.check t nowMs f deadlineMs call).2) := by
  have hleads : (m.phase t).leads = none := by rw [hphase]; rfl
  obtain ⟨key, hjoined⟩ := hi.joined t f deadlineMs call hphase
  have hlt : f < m.heap.length := by
    obtain ⟨context, hmem⟩ := hjoined
    exact hi.fresh _ hmem
  rw [Machine.check]
  rcases hi.checked nowMs f deadlineMs call with ⟨deadlineMs', hchecked⟩ | ⟨result, call', hchecked, hret⟩
  · rw [hchecked, List.append_nil]
    apply (hi.setOwner none).goto
    · exact hleads.symm
    · intro f' key' result call' heq
      cases heq
    · intro f' deadlineMs' call' heq
      obtain ⟨rfl, -, -⟩ := Phase.following.inj heq
      exact ⟨key, hjoined⟩
  · rw [hchecked]
    have hj : Justifies h (.returned t f result call') := by
      rcases hret with htimeout | ⟨u, key', hmem⟩
      · exact ⟨key, hjoined, .inl htimeout⟩
      · -- the flight was published under the key the follower joined it by
        obtain ⟨context, hjoin⟩ := hjoined
        obtain ⟨before, after, heq, w, hreg⟩ := hi.justified.exists_of_mem hjoin
        obtain ⟨before', after', heq', hreg', -⟩ := hi.justified.exists_of_mem hmem
        have hw : Registered h w f key := by
          rw [heq]
          exact hreg.append _
        have hu : Registered h u f key' := by
          rw [heq']
          exact hreg'.append _
        obtain ⟨rfl, rfl⟩ := registered_unique hi.justified hw hu
        exact ⟨key, ⟨context, hjoin⟩, .inr ⟨w, hmem⟩⟩
    have happend := hi.append (e := .returned t f result call') hj hlt rfl fun _ => rfl
    exact (happend.setOwner none).leave hleads rfl fun _ _ _ => Phase.noConfusion

/-- **Every step keeps the invariant.** -/
theorem inv_of_steps {a : Act ι} (hi : Inv m h) (hs : Steps (m, h) a (m', h')) : Inv m' h' := by
  cases a with
  | enter t call =>
    obtain ⟨hphase, rfl, rfl⟩ := steps_enter hs
    have hleads : (m.phase t).leads = none := by rw [hphase]; rfl
    split_ifs
    · exact hi.leave hleads rfl fun _ _ _ => Phase.noConfusion
    · exact hi.leave hleads rfl fun _ _ _ => Phase.noConfusion
  | acquire t =>
    obtain ⟨-, -, rfl, rfl⟩ := steps_acquire hs
    exact hi.setOwner (some t)
  | join t =>
    obtain ⟨call, hphase, -, rfl, rfl⟩ := steps_join hs
    exact hi.join hphase
  | finish t ending =>
    have hquiet : ending.leave.leads = none := by cases ending <;> rfl
    have hfollowing : ∀ f deadlineMs call, ending.leave ≠ .following f deadlineMs call := by
      intro f deadlineMs call
      cases ending <;> exact Phase.noConfusion
    rcases steps_finish hs with ⟨call, hphase, rfl, rfl⟩ | ⟨call, hphase, rfl, rfl⟩ |
      ⟨f, key, call, hphase, rfl, rfl⟩
    · have hleads : (m.phase t).leads = none := by rw [hphase]; rfl
      exact hi.leave hleads hquiet hfollowing
    · have hleads : (m.phase t).leads = none := by rw [hphase]; rfl
      exact (hi.setOwner none).leave hleads hquiet hfollowing
    · exact hi.finish ending hphase
  | publish t =>
    obtain ⟨f, key, result, call, hphase, -, rfl, rfl⟩ := steps_publish hs
    exact hi.publish hphase
  | check t nowMs =>
    obtain ⟨f, deadlineMs, call, hphase, -, rfl, rfl⟩ := steps_check hs
    exact hi.check nowMs hphase
  | leave t =>
    obtain ⟨hphase, rfl, rfl⟩ := steps_leave hs
    have hleads : (m.phase t).leads = none := by
      rcases hphase with ⟨result, call, hphase⟩ | hphase <;> rw [hphase] <;> rfl
    exact hi.leave hleads rfl fun _ _ _ => Phase.noConfusion

theorem inv_of_run {maxFlights : ℕ} {acts : List (Act ι)}
    (hrun : Run Steps (Machine.init maxFlights, []) acts (m, h)) : Inv m h :=
  hrun.invariant (I := fun s : Trace ι => Inv s.1 s.2)
    (fun _ _ _ hi hs => inv_of_steps hi hs) (inv_init maxFlights)

end

/-! ### Safety -/

/-- What holds of the threads in a coalescer, and of what they did. -/
structure Safe [DecidableEq ι] (m : Machine ι) (h : List (Event ι)) : Prop where
  /-- The map holds the keys whose leader has registered and not yet published. -/
  keys : ∀ key, key ∈ m.flights ↔ ∃ t f, m.Leads t f key
  room : m.flights.entries.length ≤ m.maxFlights
  /-- Two leaders of one key never run their operations at the same time. -/
  alone : ∀ t u f g key call call', m.phase t = .leading f key call →
    m.phase u = .leading g key call' → t = u
  /-- A follower gives up, or returns what the leader of its flight published under the same key after
  its operation had ended. -/
  follower : ∀ before t f result call after, h = before ++ .returned t f result call :: after →
    ∃ key, Joined before t f key ∧
      ((result = .errTimeout ∧ call.response.errCode = .errTimeout ∧
          call.response.failureStage = "dedup_wait") ∨
        ∃ u first second ending, before = first ++
            .published u f key result call.response call.context.dnsCacheHit :: second ∧
          Registered first u f key ∧ .ended u f ending ∈ first)
  /-- A leader publishes what its operation left, be it by a return or by an exception. -/
  published : ∀ before t f key result response dnsCacheHit after,
    h = before ++ .published t f key result response dnsCacheHit :: after →
    Registered before t f key ∧ ∃ ending, .ended t f ending ∈ before ∧
      ending.settle.1 = result ∧ ending.settle.2.response = response ∧
      ending.settle.2.context.dnsCacheHit = dnsCacheHit
  /-- A leader publishes its flight once, and until then it leads it. -/
  once : ∀ t f key, Registered h t f key →
    h.countP (·.publishes f) = if m.Leads t f key then 0 else 1
  /-- Publishing erases the leader's own flight and nothing else. -/
  erases : ∀ t f key result call, m.phase t = .publishing f key result call →
    m.flights.lookup key = some f ∧
    ∀ key', (m.publish t f key result call).flights.lookup key' =
      if key' = key then none else m.flights.lookup key'

section

variable [DecidableEq ι] {m : Machine ι} {h : List (Event ι)}

theorem Inv.safe (hi : Inv m h) : Safe m h where
  keys key := by
    rw [← AList.lookup_isSome, Option.isSome_iff_exists, exists_comm]
    exact exists_congr fun f => hi.lookup_iff key f
  room := hi.room
  alone t u f g key call call' ht hu :=
    (hi.leads_unique (leads_of_leading ht) (leads_of_leading hu)).1
  follower before t f result call after heq := by
    obtain ⟨key, hjoined, htimeout | ⟨u, hmem⟩⟩ := hi.justified before _ after heq
    · exact ⟨key, hjoined, .inl htimeout⟩
    · obtain ⟨first, second, hsplit⟩ := List.append_of_mem hmem
      -- the ending comes before the publication, and that before the return
      have hfirst : h = first ++
          .published u f key result call.response call.context.dnsCacheHit ::
            (second ++ .returned t f result call :: after) := by
        rw [heq, hsplit, List.append_assoc, List.cons_append]
      have hpub := hi.justified first _ _ hfirst
      obtain ⟨hreg, -, ending, hended, -⟩ := hpub
      exact ⟨key, hjoined, .inr ⟨u, first, second, ending, hsplit, hreg, hended⟩⟩
  published before t f key result response dnsCacheHit after heq := by
    obtain ⟨hreg, -, hended⟩ := hi.justified before _ after heq
    exact ⟨hreg, hended⟩
  once := hi.count
  erases t f key result call hphase := by
    refine ⟨(hi.lookup_iff key f).mpr ⟨t, leads_of_publishing hphase⟩, fun key' => ?_⟩
    show (m.flights.erase key).lookup key' = _
    split_ifs with heq
    · rw [heq, AList.lookup_erase]
    · rw [AList.lookup_erase_ne heq]

/-- **Coalescing is safe**, for any threads and in every state they reach. -/
theorem safe_of_run {maxFlights : ℕ} {acts : List (Act ι)}
    (hrun : Run Steps (Machine.init maxFlights, []) acts (m, h)) : Safe m h :=
  (inv_of_run hrun).safe

end

/-- A `GET` of a host. -/
def getCall (host : Bytes) : Call where
  context :=
    { request := { host, retrySafe := true }
      deadlineMs := 1000 }
  response := {}

/-- A leader whose operation throws, and its follower. -/
def throwRun : List (Act Bool) :=
  [.enter false (getCall [97]), .acquire false, .join false, .enter true (getCall [97]), .acquire true,
    .join true, .acquire true, .check true 5, .finish false (.threw (getCall [97])), .acquire false,
    .publish false, .acquire true, .check true 7]

/-- The follower returns what the leader published. -/
theorem safe_throwRun : ∃ m h, Run Steps (Machine.init 1, []) throwRun (m, h) ∧ Safe m h ∧
    h.getLast? = some (.returned true 0 .errInternal
      { context := { (getCall [97]).context with deduplicated := true }
        response := { errCode := .errInternal, failureStage := "orchestrator" } }) := by
  have hlog : (throwRun.foldlM next (Machine.init 1, [])).bind (·.2.getLast?) =
      some (.returned true 0 .errInternal
        { context := { (getCall [97]).context with deduplicated := true }
          response := { errCode := .errInternal, failureStage := "orchestrator" } }) := by
    decide +kernel
  obtain ⟨⟨m, h⟩, hfold, hlast⟩ := Option.bind_eq_some_iff.mp hlog
  have hrun : Run Steps (Machine.init 1, []) throwRun (m, h) := Run.of_foldlM hfold
  exact ⟨m, h, hrun, safe_of_run hrun, hlast⟩

end Coalescer

end AsterNet.Orchestrator
