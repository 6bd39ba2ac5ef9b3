import AsterNet.Lib.Transition
import AsterNet.Orchestrator.Interceptor

/-!
# Threads in the request coalescer (`RequestCoalescer::execute`)

Any number of threads call `execute` on one coalescer.  Each thread is in a `Phase` of the function;
taking the mutex is a step of its own (`Act.acquire`), and the body of each locked section, with the
release at its end, is one step.  An operation and the exceptions it may throw are arbitrary: `finish`
says how it ended.

`Event`s record what the threads did: who registered a flight, how its operation ended, what was
published, and what a follower returned.
-/

namespace AsterNet.Orchestrator

namespace Coalescer

/-- `RequestCoalescer::State::Flight`. -/
structure FlightState where
  complete : Bool := false
  result : Result := .errInternal
  response : Response := {}
  dnsCacheHit : Bool := false
  deriving DecidableEq, Repr

/-- The arguments of a call of `execute`, which are passed by reference. -/
structure Call where
  context : RequestContext
  response : Response
  deriving DecidableEq, Repr

/-- How an operation ends. -/
inductive Ending
  | returned (result : Result) (call : Call)
  | threw (call : Call)
  deriving DecidableEq, Repr

/-- What a leader goes on with: the exception is caught. -/
def Ending.settle : Ending → Result × Call
  | .returned result call => (result, call)
  | .threw call =>
    (.errInternal,
      { call with response := { errCode := .errInternal, failureStage := "orchestrator" } })

/-- Where a thread is in `execute`. -/
inductive Phase
  | idle
  /-- The operation of a request that is not shareable. -/
  | direct (call : Call)
  /-- Before the first locked section, or in it. -/
  | joining (call : Call)
  /-- The operation of a request the full table did not take. -/
  | saturated (call : Call)
  /-- The operation of a leader. -/
  | leading (flight : ℕ) (key : Bytes) (call : Call)
  /-- Before the section that publishes, or in it. -/
  | publishing (flight : ℕ) (key : Bytes) (result : Result) (call : Call)
  /-- A follower, which takes the mutex each time it looks at its flight. -/
  | following (flight : ℕ) (deadlineMs : Option ℤ) (call : Call)
  | returned (result : Result) (call : Call)
  | threw
  deriving DecidableEq, Repr

namespace Phase

/-- The thread needs the mutex to go on. -/
def inSection : Phase → Bool
  | .joining _ | .publishing .. | .following .. => true
  | _ => false

/-- The thread runs its operation. -/
def isExecuting : Phase → Bool
  | .direct _ | .saturated _ | .leading .. => true
  | _ => false

/-- The flight and the key of a leader that has not published. -/
def leads : Phase → Option (ℕ × Bytes)
  | .leading flight key _ | .publishing flight key .. => some (flight, key)
  | _ => none

end Phase

/-- An operation outside any flight ends: its exception leaves `execute`. -/
def Ending.leave : Ending → Phase
  | .returned result call => .returned result call
  | .threw _ => .threw

/-- A coalescer and the threads in it.  A flight is an index into `heap`: the object lives as long as
a thread holds it. -/
structure Machine (ι : Type) where
  maxFlights : ℕ
  flights : AList fun _ : Bytes => ℕ := ∅
  heap : List FlightState := []
  owner : Option ι := none
  phase : ι → Phase := fun _ => .idle

/-- What happened in a coalescer. -/
inductive Event (ι : Type)
  /-- A leader registered a new flight under the key of its context. -/
  | registered (t : ι) (flight : ℕ) (key : Bytes) (context : RequestContext)
  /-- A follower found a flight under the key of its context. -/
  | joined (t : ι) (flight : ℕ) (key : Bytes) (context : RequestContext)
  /-- The operation of a leader ended. -/
  | ended (t : ι) (flight : ℕ) (ending : Ending)
  /-- A leader published, and erased the key. -/
  | published (t : ι) (flight : ℕ) (key : Bytes) (result : Result) (response : Response)
      (dnsCacheHit : Bool)
  /-- A follower returned. -/
  | returned (t : ι) (flight : ℕ) (result : Result) (call : Call)
  deriving DecidableEq, Repr

/-- What a thread may do. -/
inductive Act (ι : Type)
  /-- `execute` is called. -/
  | enter (t : ι) (call : Call)
  /-- The mutex is taken. -/
  | acquire (t : ι)
  /-- The first locked section. -/
  | join (t : ι)
  /-- The operation ends. -/
  | finish (t : ι) (ending : Ending)
  /-- The locked section of a leader. -/
  | publish (t : ι)
  /-- A follower holds the mutex and evaluates the predicate of `wait_until`. -/
  | check (t : ι) (nowMs : ℕ)
  /-- The caller of `execute` goes on. -/
  | leave (t : ι)
  deriving DecidableEq, Repr

namespace Machine

variable {ι : Type} [DecidableEq ι] (m : Machine ι)

/-- `RequestCoalescer::RequestCoalescer`. -/
def init (maxFlights : ℕ) : Machine ι where
  maxFlights := if maxFlights = 0 then 1 else maxFlights

/-- A thread moves on. -/
def goto (t : ι) (phase : Phase) : Machine ι := { m with phase := Function.update m.phase t phase }

/-- The end of a locked section. -/
def unlock : Machine ι := { m with owner := none }

@[simp] theorem goto_flights (t : ι) (p : Phase) : (m.goto t p).flights = m.flights := rfl
@[simp] theorem goto_heap (t : ι) (p : Phase) : (m.goto t p).heap = m.heap := rfl
@[simp] theorem goto_maxFlights (t : ι) (p : Phase) : (m.goto t p).maxFlights = m.maxFlights := rfl
@[simp] theorem goto_owner (t : ι) (p : Phase) : (m.goto t p).owner = m.owner := rfl

@[simp] theorem goto_phase_self (t : ι) (p : Phase) : (m.goto t p).phase t = p := by
  simp [goto]

theorem goto_phase_of_ne {t u : ι} (h : u ≠ t) (p : Phase) : (m.goto t p).phase u = m.phase u := by
  simp [goto, h]

/-- A flight of the heap. -/
def flight (i : ℕ) : FlightState := m.heap.getD i {}

/-- A new flight is registered. -/
def register (t : ι) (key : Bytes) (call : Call) : Machine ι :=
  { m with
    flights := m.flights.insert key m.heap.length
    heap := m.heap ++ [({} : FlightState)] }.unlock.goto t (.leading m.heap.length key call)

/-- The first locked section. -/
def join (t : ι) (call : Call) : Machine ι × List (Event ι) :=
  let key := dedupKey call.context
  match m.flights.lookup key with
  | none =>
    -- `return operation(context, response)` is inside the scope of the guard
    if m.maxFlights ≤ m.flights.entries.length then (m.goto t (.saturated call), [])
    else (m.register t key call, [.registered t m.heap.length key call.context])
  | some flight =>
    (m.unlock.goto t
      (.following flight none { call with context := { call.context with deduplicated := true } }),
      [.joined t flight key call.context])

theorem join_of_full {t : ι} {call : Call} (hlookup : m.flights.lookup (dedupKey call.context) = none)
    (hfull : m.maxFlights ≤ m.flights.entries.length) :
    m.join t call = (m.goto t (.saturated call), []) := by
  unfold join
  simp only [hlookup]
  rw [if_pos hfull]

theorem join_of_room {t : ι} {call : Call} (hlookup : m.flights.lookup (dedupKey call.context) = none)
    (hroom : m.flights.entries.length < m.maxFlights) :
    m.join t call = (m.register t (dedupKey call.context) call,
      [.registered t m.heap.length (dedupKey call.context) call.context]) := by
  unfold join
  simp only [hlookup]
  rw [if_neg (Nat.not_le.mpr hroom)]

theorem join_of_found {t : ι} {call : Call} {flight : ℕ}
    (hlookup : m.flights.lookup (dedupKey call.context) = some flight) :
    m.join t call =
      (m.unlock.goto t (.following flight none
        { call with context := { call.context with deduplicated := true } }),
      [.joined t flight (dedupKey call.context) call.context]) := by
  unfold join
  simp only [hlookup]

/-- The locked section of a leader. -/
def publish (t : ι) (flight : ℕ) (key : Bytes) (result : Result) (call : Call) : Machine ι :=
  { m with
    heap := m.heap.set flight
      { complete := true
        result
        response := call.response
        dnsCacheHit := call.context.dnsCacheHit }
    flights := m.flights.erase key }.unlock.goto t (.returned result call)

/-- What a follower does with its flight at `nowMs`: `wait_until` waits at least once before it gives
up. -/
def checked (nowMs : ℕ) (flight : ℕ) (deadlineMs : Option ℤ) (call : Call) : Phase :=
  if (m.flight flight).complete then
    .returned (m.flight flight).result
      { context := { call.context with dnsCacheHit := (m.flight flight).dnsCacheHit }
        response := (m.flight flight).response }
  else
    match deadlineMs with
    | none =>
      let deadlineMs : ℤ := if 0 < call.context.deadlineMs then call.context.deadlineMs
        else nowMs + call.context.request.timeoutMs
      .following flight (some (max nowMs deadlineMs)) call
    | some deadlineMs =>
      if deadlineMs ≤ nowMs then
        .returned .errTimeout
          { call with
            response := { call.response with errCode := .errTimeout, failureStage := "dedup_wait" } }
      else .following flight (some deadlineMs) call

omit [DecidableEq ι] in
/-- A follower goes on waiting or returns. -/
theorem checked_cases (nowMs flight : ℕ) (deadlineMs : Option ℤ) (call : Call) :
    (∃ deadlineMs', m.checked nowMs flight deadlineMs call = .following flight deadlineMs' call) ∨
    ∃ result call', m.checked nowMs flight deadlineMs call = .returned result call' := by
  unfold checked
  by_cases hcomplete : (m.flight flight).complete = true
  · rw [if_pos hcomplete]
    exact .inr ⟨_, _, rfl⟩
  · rw [if_neg hcomplete]
    rcases deadlineMs with - | deadlineMs
    · exact .inl ⟨_, rfl⟩
    · dsimp only
      split_ifs
      · exact .inr ⟨_, _, rfl⟩
      · exact .inl ⟨_, rfl⟩

/-- A step of a follower. -/
def check (t : ι) (nowMs : ℕ) (flight : ℕ) (deadlineMs : Option ℤ) (call : Call) :
    Machine ι × List (Event ι) :=
  (m.unlock.goto t (m.checked nowMs flight deadlineMs call),
    match m.checked nowMs flight deadlineMs call with
    | .returned result call => [.returned t flight result call]
    | _ => [])

/-- One act of a thread, when it can happen. -/
def act : Act ι → Option (Machine ι × List (Event ι))
  | .enter t call =>
    match m.phase t with
    | .idle =>
      some (m.goto t (if isShareable call.context then .joining call else .direct call), [])
    | _ => none
  | .acquire t =>
    if m.owner = none ∧ (m.phase t).inSection then some ({ m with owner := some t }, []) else none
  | .join t =>
    match m.phase t with
    | .joining call => if m.owner = some t then some (m.join t call) else none
    | _ => none
  | .finish t ending =>
    match m.phase t with
    | .direct _ => some (m.goto t ending.leave, [])
    | .saturated _ => some (m.unlock.goto t ending.leave, [])
    | .leading flight key _ =>
      some (m.goto t (.publishing flight key ending.settle.1 ending.settle.2),
        [.ended t flight ending])
    | _ => none
  | .publish t =>
    match m.phase t with
    | .publishing flight key result call =>
      if m.owner = some t then
        some (m.publish t flight key result call,
          [.published t flight key result call.response call.context.dnsCacheHit])
      else none
    | _ => none
  | .check t nowMs =>
    match m.phase t with
    | .following flight deadlineMs call =>
      if m.owner = some t then some (m.check t nowMs flight deadlineMs call) else none
    | _ => none
  | .leave t =>
    match m.phase t with
    | .returned .. | .threw => some (m.goto t .idle, [])
    | _ => none

/-- A thread leads a flight under a key: it has registered and not yet published. -/
def Leads (t : ι) (flight : ℕ) (key : Bytes) : Prop := (m.phase t).leads = some (flight, key)

instance (t : ι) (flight : ℕ) (key : Bytes) : Decidable (m.Leads t flight key) :=
  inferInstanceAs (Decidable (_ = _))

end Machine

/-- A machine with what happened so far. -/
abbrev Trace (ι : Type) := Machine ι × List (Event ι)

section

variable {ι : Type} [DecidableEq ι] {m m' : Machine ι} {h h' : List (Event ι)} {t : ι}

/-- One act, with what it adds to the history. -/
def next (s : Trace ι) (a : Act ι) : Option (Trace ι) :=
  (s.1.act a).map fun r => (r.1, s.2 ++ r.2)

/-- The steps of a coalescer. -/
def Steps (s : Trace ι) (a : Act ι) (s' : Trace ι) : Prop := next s a = some s'

theorem Steps.exists_act {a : Act ι} (hs : Steps (m, h) a (m', h')) :
    ∃ es, m.act a = some (m', es) ∧ h' = h ++ es := by
  obtain ⟨⟨m₁, es⟩, hact, heq⟩ := Option.map_eq_some_iff.mp hs
  obtain ⟨rfl, rfl⟩ := Prod.mk.inj heq
  exact ⟨es, hact, rfl⟩

theorem steps_enter {call : Call} (hs : Steps (m, h) (.enter t call) (m', h')) :
    m.phase t = .idle ∧ h' = h ∧
      m' = m.goto t (if isShareable call.context then .joining call else .direct call) := by
  obtain ⟨es, hact, hh⟩ := hs.exists_act
  rw [Machine.act] at hact
  split at hact
  · case h_1 hphase =>
    obtain ⟨rfl, rfl⟩ := Prod.mk.inj (Option.some.inj hact)
    exact ⟨hphase, by simpa using hh, rfl⟩
  · cases hact

theorem steps_acquire (hs : Steps (m, h) (.acquire t) (m', h')) :
    m.owner = none ∧ (m.phase t).inSection = true ∧ h' = h ∧ m' = { m with owner := some t } := by
  obtain ⟨es, hact, hh⟩ := hs.exists_act
  rw [Machine.act] at hact
  split_ifs at hact with hfree
  obtain ⟨rfl, rfl⟩ := Prod.mk.inj (Option.some.inj hact)
  exact ⟨hfree.1, hfree.2, by simpa using hh, rfl⟩

theorem steps_join (hs : Steps (m, h) (.join t) (m', h')) :
    ∃ call, m.phase t = .joining call ∧ m.owner = some t ∧ m' = (m.join t call).1 ∧
      h' = h ++ (m.join t call).2 := by
  obtain ⟨es, hact, hh⟩ := hs.exists_act
  rw [Machine.act] at hact
  split at hact
  · case h_1 call hphase =>
    split_ifs at hact with howner
    have hjoin := Option.some.inj hact
    refine ⟨call, hphase, howner, ?_, ?_⟩
    · rw [hjoin]
    · rw [hjoin]
      exact hh
  · cases hact

theorem steps_finish {ending : Ending} (hs : Steps (m, h) (.finish t ending) (m', h')) :
    (∃ call, m.phase t = .direct call ∧ h' = h ∧ m' = m.goto t ending.leave) ∨
    (∃ call, m.phase t = .saturated call ∧ h' = h ∧ m' = m.unlock.goto t ending.leave) ∨
    ∃ flight key call, m.phase t = .leading flight key call ∧ h' = h ++ [.ended t flight ending] ∧
      m' = m.goto t (.publishing flight key ending.settle.1 ending.settle.2) := by
  obtain ⟨es, hact, hh⟩ := hs.exists_act
  rw [Machine.act] at hact
  split at hact
  · case h_1 call hphase =>
    obtain ⟨rfl, rfl⟩ := Prod.mk.inj (Option.some.inj hact)
    exact .inl ⟨call, hphase, by simpa using hh, rfl⟩
  · case h_2 call hphase =>
    obtain ⟨rfl, rfl⟩ := Prod.mk.inj (Option.some.inj hact)
    exact .inr (.inl ⟨call, hphase, by simpa using hh, rfl⟩)
  · case h_3 flight key call hphase =>
    obtain ⟨rfl, rfl⟩ := Prod.mk.inj (Option.some.inj hact)
    exact .inr (.inr ⟨flight, key, call, hphase, hh, rfl⟩)
  · cases hact

theorem steps_publish (hs : Steps (m, h) (.publish t) (m', h')) :
    ∃ flight key result call, m.phase t = .publishing flight key result call ∧ m.owner = some t ∧
      h' = h ++ [.published t flight key result call.response call.context.dnsCacheHit] ∧
      m' = m.publish t flight key result call := by
  obtain ⟨es, hact, hh⟩ := hs.exists_act
  rw [Machine.act] at hact
  split at hact
  · case h_1 flight key result call hphase =>
    split_ifs at hact with howner
    obtain ⟨rfl, rfl⟩ := Prod.mk.inj (Option.some.inj hact)
    exact ⟨flight, key, result, call, hphase, howner, hh, rfl⟩
  · cases hact

theorem steps_check {nowMs : ℕ} (hs : Steps (m, h) (.check t nowMs) (m', h')) :
    ∃ flight deadlineMs call, m.phase t = .following flight deadlineMs call ∧ m.owner = some t ∧
      m' = (m.check t nowMs flight deadlineMs call).1 ∧
      h' = h ++ (m.check t nowMs flight deadlineMs call).2 := by
  obtain ⟨es, hact, hh⟩ := hs.exists_act
  rw [Machine.act] at hact
  split at hact
  · case h_1 flight deadlineMs call hphase =>
    split_ifs at hact with howner
    have hcheck := Option.some.inj hact
    refine ⟨flight, deadlineMs, call, hphase, howner, ?_, ?_⟩
    · rw [hcheck]
    · rw [hcheck]
      exact hh
  · cases hact

theorem steps_leave (hs : Steps (m, h) (.leave t) (m', h')) :
    ((∃ result call, m.phase t = .returned result call) ∨ m.phase t = .threw) ∧ h' = h ∧
      m' = m.goto t .idle := by
  obtain ⟨es, hact, hh⟩ := hs.exists_act
  rw [Machine.act] at hact
  split at hact
  · case h_1 result call hphase =>
    obtain ⟨rfl, rfl⟩ := Prod.mk.inj (Option.some.inj hact)
    exact ⟨.inl ⟨result, call, hphase⟩, by simpa using hh, rfl⟩
  · case h_2 hphase =>
    obtain ⟨rfl, rfl⟩ := Prod.mk.inj (Option.some.inj hact)
    exact ⟨.inr hphase, by simpa using hh, rfl⟩
  · cases hact

end

end Coalescer

end AsterNet.Orchestrator
