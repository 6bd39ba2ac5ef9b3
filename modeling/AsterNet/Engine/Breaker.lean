import AsterNet.Engine.ProtocolSelector
import AsterNet.Lib.Transition

/-!
# The circuit breaker by itself

`is_available`, `record_failure` and `record_success` hold `states_mutex_` from beginning to end, so what
any number of threads make of the table is a sequence of `Op`s.  `Session` keeps the table together with
the history of what was asked and recorded, newest first; the clock is positive and never goes back.

`checkAt`, `failAt` and `succeedAt` are the three functions at a given reading of the clock;
`isAvailable_spec`, `recordFailure_spec` and `recordSuccess_spec` connect them with the programs.
-/

namespace AsterNet

open Effect Prog

namespace ProtocolSelector

/-- `is_available` when the clock shows `nowMs`. -/
def checkAt (states : Breakers) (key : Bytes × EngineType) (nowMs : ℕ) : Bool × Breakers :=
  match states.lookup key with
  | none => (true, states)
  | some state =>
    if state.bannedUntilMs = 0 then (true, states)
    else if state.bannedUntilMs ≤ nowMs then
      (true, states.insert key { failures := 0, bannedUntilMs := 0 })
    else (false, states)

/-- What `record_failure` leaves under its key. -/
def failedState (settings : Settings) (state : BreakerState) (nowMs : ℕ) : BreakerState :=
  if settings.maxFailures ≤ state.failures + 1 then
    { failures := state.failures + 1, bannedUntilMs := nowMs + settings.cooldownMs }
  else { state with failures := state.failures + 1 }

/-- The table with room for a key. -/
def makeRoom (settings : Settings) (states : Breakers) (key : Bytes × EngineType) (choice : ℕ) :
    Breakers :=
  if settings.maxStates ≤ states.entries.length ∧ key ∉ states then
    UnorderedMap.eraseFirst choice states
  else states

/-- `record_failure` when the clock shows `nowMs`. -/
def failAt (settings : Settings) (states : Breakers) (key : Bytes × EngineType) (choice nowMs : ℕ) :
    Breakers :=
  let states := makeRoom settings states key choice
  states.insert key (failedState settings ((states.lookup key).getD {}) nowMs)

/-- `record_success`. -/
def succeedAt (states : Breakers) (key : Bytes × EngineType) : Breakers :=
  match states.lookup key with
  | none => states
  | some _ => states.insert key { failures := 0, bannedUntilMs := 0 }

/-! ### The entries of a table -/

section

variable {settings : Settings} {states : Breakers} {key key' : Bytes × EngineType} {choice nowMs : ℕ}

/-- Room is made only for a key that is not there. -/
theorem lookup_makeRoom_self :
    (makeRoom settings states key choice).lookup key = states.lookup key := by
  unfold makeRoom
  split_ifs with hfull
  · rw [AList.lookup_eq_none.mpr hfull.2]
    rcases hlookup : (UnorderedMap.eraseFirst choice states).lookup key with - | state
    · rfl
    · have hstate := UnorderedMap.lookup_of_lookup_eraseFirst hlookup
      rw [AList.lookup_eq_none.mpr hfull.2] at hstate
      cases hstate
  · rfl

theorem lookup_checkAt_ne (hne : key ≠ key') :
    (checkAt states key' nowMs).2.lookup key = states.lookup key := by
  unfold checkAt
  rcases states.lookup key' with - | state
  · rfl
  · dsimp only
    split_ifs
    · rfl
    · exact AList.lookup_insert_ne hne
    · rfl

theorem lookup_succeedAt_ne (hne : key ≠ key') :
    (succeedAt states key').lookup key = states.lookup key := by
  unfold succeedAt
  rcases states.lookup key' with - | state
  · rfl
  · exact AList.lookup_insert_ne hne

/-- A failure leaves another entry as it is, unless a full table drops it. -/
theorem lookup_failAt_ne (hne : key ≠ key') :
    (failAt settings states key' choice nowMs).lookup key = states.lookup key ∨
      ((failAt settings states key' choice nowMs).lookup key = none ∧
        settings.maxStates ≤ states.entries.length) := by
  unfold failAt
  dsimp only
  rw [AList.lookup_insert_ne hne, makeRoom]
  split_ifs with hfull
  · rcases hlookup : (UnorderedMap.eraseFirst choice states).lookup key with - | state
    · exact .inr ⟨rfl, hfull.1⟩
    · exact .inl (UnorderedMap.lookup_of_lookup_eraseFirst hlookup).symm
  · exact .inl rfl

theorem lookup_of_lookup_failAt {st : BreakerState} (hne : key ≠ key')
    (h : (failAt settings states key' choice nowMs).lookup key = some st) :
    states.lookup key = some st := by
  rcases lookup_failAt_ne hne with hsame | ⟨hgone, -⟩
  · exact hsame.symm.trans h
  · cases hgone.symm.trans h

theorem lookup_failAt_self (settings : Settings) (states : Breakers) (key : Bytes × EngineType)
    (choice nowMs : ℕ) :
    (failAt settings states key choice nowMs).lookup key =
      some (failedState settings ((states.lookup key).getD {}) nowMs) := by
  unfold failAt
  dsimp only
  rw [AList.lookup_insert, lookup_makeRoom_self]

theorem getD_succeedAt_self :
    ((succeedAt states key).lookup key).getD {} = { failures := 0, bannedUntilMs := 0 } := by
  unfold succeedAt
  split
  · case h_1 hlookup =>
    rw [hlookup]
    rfl
  · rw [AList.lookup_insert]
    rfl

theorem failures_failedState (settings : Settings) (state : BreakerState) (nowMs : ℕ) :
    (failedState settings state nowMs).failures = state.failures + 1 := by
  unfold failedState
  split_ifs
  · rfl
  · rfl

end

/-! ### The programs -/

section

variable {σ : Type} (env : Env σ) (settings : Settings) (type : EngineType) (request : Request)
  (w : World σ)

theorem isAvailable_spec :
    (isAvailable env type request w).val =
      (checkAt w.breakers (stateHostKey request, type) (env.monotonicMs w.out).1).1 ∧
    (isAvailable env type request w).post.breakers =
      (checkAt w.breakers (stateHostKey request, type) (env.monotonicMs w.out).1).2 := by
  unfold isAvailable checkAt
  rw [Program.bind_apply, getBreakers_apply]
  dsimp only
  rcases w.breakers.lookup (stateHostKey request, type) with - | state
  · exact ⟨rfl, rfl⟩
  · dsimp only
    by_cases hzero : state.bannedUntilMs = 0
    · rw [if_pos hzero, if_pos hzero]
      exact ⟨rfl, rfl⟩
    · rw [if_neg hzero, if_neg hzero, Program.bind_apply, now_apply]
      dsimp only
      rw [Program.ite_apply]
      split_ifs
      · exact ⟨rfl, rfl⟩
      · exact ⟨rfl, rfl⟩

theorem recordSuccess_spec :
    (recordSuccess type request w).post.breakers = succeedAt w.breakers (stateHostKey request, type) := by
  unfold recordSuccess succeedAt
  rw [Program.bind_apply, getBreakers_apply]
  dsimp only
  rcases w.breakers.lookup (stateHostKey request, type) with - | state
  · rfl
  · rfl

theorem recordFailure_spec :
    (recordFailure env settings type request w).post.breakers =
      failAt settings w.breakers (stateHostKey request, type) (env.pick w.out).1
        (env.monotonicMs (env.pick w.out).2).1 := by
  unfold recordFailure failAt failedState
  dsimp only
  rw [Program.bind_apply, getBreakers_apply, Program.bind_apply, ask_apply]
  dsimp only
  rw [Program.ite_apply, makeRoom]
  split_ifs
  · rfl
  · rfl
  · rfl
  · rfl

end

/-! ### Histories -/

/-- What a breaker is kept for. -/
structure Circuit where
  host : Bytes
  port : UInt16
  networkEpoch : ℕ
  type : EngineType
  deriving DecidableEq, Repr

/-- The key of a circuit in the table. -/
def Circuit.key (circuit : Circuit) : Bytes × EngineType :=
  (stateHostKey
    { host := circuit.host, port := circuit.port, networkEpoch := circuit.networkEpoch }, circuit.type)

/-- The circuit of an engine for a request. -/
def Circuit.ofRequest (type : EngineType) (request : Request) : Circuit where
  host := request.host
  port := request.port
  networkEpoch := request.networkEpoch
  type := type

/-- A call on the breaker, at the reading of the clock it would take. -/
inductive Op
  | check (circuit : Circuit) (nowMs : ℕ)
  | failure (circuit : Circuit) (nowMs choice : ℕ)
  | success (circuit : Circuit) (nowMs : ℕ)
  deriving DecidableEq, Repr

/-- The reading of a call. -/
def Op.nowMs : Op → ℕ
  | .check _ nowMs | .failure _ nowMs _ | .success _ nowMs => nowMs

/-- What was asked and recorded. -/
inductive Record
  | check (circuit : Circuit) (nowMs : ℕ) (available : Bool)
  | failure (circuit : Circuit) (nowMs : ℕ)
  | success (circuit : Circuit) (nowMs : ℕ)
  deriving DecidableEq, Repr

namespace Record

def circuit : Record → Circuit
  | .check circuit .. | .failure circuit _ | .success circuit _ => circuit

def nowMs : Record → ℕ
  | .check _ nowMs _ | .failure _ nowMs | .success _ nowMs => nowMs

end Record

/-- The table, the history (newest first) and the latest reading of the clock. -/
structure Session where
  states : Breakers := ∅
  history : List Record := []
  clockMs : ℕ := 1

namespace Session

/-- The session after a call. -/
def apply (settings : Settings) (s : Session) : Op → Session
  | .check circuit nowMs =>
    { states := (checkAt s.states circuit.key nowMs).2
      history := .check circuit nowMs (checkAt s.states circuit.key nowMs).1 :: s.history
      clockMs := nowMs }
  | .failure circuit nowMs choice =>
    { states := failAt settings s.states circuit.key choice nowMs
      history := .failure circuit nowMs :: s.history
      clockMs := nowMs }
  | .success circuit nowMs =>
    { states := succeedAt s.states circuit.key
      history := .success circuit nowMs :: s.history
      clockMs := nowMs }

/-- A call at or after the latest reading. -/
def Step (settings : Settings) (s : Session) (op : Op) (s' : Session) : Prop :=
  s.clockMs ≤ op.nowMs ∧ s' = s.apply settings op

end Session

end ProtocolSelector

end AsterNet
