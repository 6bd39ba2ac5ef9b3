import Mathlib.Data.Nat.Notation

/-!
# The epoll event loop (`event_loop.cpp`)

`EpollEventLoop::schedule_timer` and `poll_once`, over the `timerfd` and what `epoll_wait` returns.  Times
are nanoseconds of `CLOCK_MONOTONIC`.  Of a callback, on a descriptor or of the timer, the model has the
`schedule_timer` calls that it makes, each with its time; the event of a descriptor without a callback
makes none.  `timerfd_settime` forgets an expiration that has not been read, and with a value of zero it
disarms the timer.

The log, the numbers of the callbacks and the clock of the state are not in the source.
-/

namespace AsterNet

namespace EpollEventLoop

/-- The most events that `poll_once` takes from one `epoll_wait`. -/
def maxEvents : ℕ := 16

/-- A call of `schedule_timer`. -/
structure Call where
  now : ℕ
  delayMs : ℕ
  deriving DecidableEq, Repr

/-- A callback that has been scheduled, the `id`-th one. -/
structure Scheduled extends Call where
  id : ℕ
  deriving DecidableEq, Repr

/-- What happens, in order. -/
inductive Event
  | scheduled (cb : Scheduled)
  /-- `epoll_wait` returns. -/
  | waited (now : ℕ)
  | ran (cb : Scheduled) (now : ℕ)
  /-- `poll_once` returns. -/
  | returned
  deriving DecidableEq, Repr

/-- The timer part of the loop: `timer_cb_`, and when `timer_fd_` expires or has expired. -/
structure State where
  timerCb : Option Scheduled := none
  expires : Option ℕ := none
  next : ℕ := 0
  clock : ℕ := 0
  log : List Event := []
  deriving DecidableEq, Repr

/-- `its.it_value`, from its seconds and its nanoseconds. -/
def itValue (delayMs : ℕ) : ℕ :=
  delayMs / 1000 * 1000000000 + delayMs % 1000 * 1000000

/-- When a `timerfd` that is set to `value` at `now` expires. -/
def timerfdSettime (now value : ℕ) : Option ℕ :=
  if value = 0 then none else some (now + value)

/-- `schedule_timer`. -/
def scheduleTimer (st : State) (call : Call) : State :=
  { st with
    timerCb := some { toCall := call, id := st.next }
    expires := timerfdSettime call.now (itValue call.delayMs)
    next := st.next + 1
    clock := call.now
    log := st.log ++ [.scheduled { toCall := call, id := st.next }] }

/-- The timer has expired and has not been read. -/
def State.readable (st : State) (now : ℕ) : Bool :=
  match st.expires with
  | none => false
  | some expires => decide (expires ≤ now)

/-- `read` of the `timerfd`, which fails with `EAGAIN` when nothing has expired. -/
def readTimer (st : State) (now : ℕ) : State :=
  if st.readable now then { st with expires := none } else st

/-- An event of `epoll_wait`, with the calls its callback makes, and for the timer the time of its turn. -/
inductive Ready
  | fd (calls : List Call)
  | timer (now : ℕ) (calls : List Call)
  deriving DecidableEq, Repr

/-- The event of the timer. -/
def Ready.isTimer : Ready → Bool
  | .fd _ => false
  | .timer _ _ => true

/-- The calls of an event's callback. -/
def Ready.calls : Ready → List Call
  | .fd calls => calls
  | .timer _ calls => calls

/-- The clock during an event's turn. -/
def Ready.times : Ready → List ℕ
  | .fd calls => calls.map Call.now
  | .timer now calls => now :: calls.map Call.now

/-- The turn of one event. -/
def dispatch (st : State) : Ready → State
  | .fd calls => calls.foldl scheduleTimer st
  | .timer now calls =>
    let st := readTimer st now
    match st.timerCb with
    | none => { st with clock := now }
    | some cb =>
      calls.foldl scheduleTimer
        { st with timerCb := none, clock := now, log := st.log ++ [.ran cb now] }

/-- `poll_once`, with the events that `epoll_wait` returns at `now`. -/
def pollOnce (st : State) (now : ℕ) (batch : List Ready) : State × Bool :=
  let st := { st with clock := now, log := st.log ++ [.waited now] }
  if batch.isEmpty then ({ st with log := st.log ++ [.returned] }, false)
  else
    let st := batch.foldl dispatch st
    ({ st with log := st.log ++ [.returned] }, true)

/-- What `epoll_wait` may return: ready descriptors, all of them when they fit. -/
structure Snapshot (st : State) (now : ℕ) (batch : List Ready) : Prop where
  length_le : batch.length ≤ maxEvents
  one : batch.countP Ready.isTimer ≤ 1
  ready : batch.any Ready.isTimer = true → st.readable now = true
  all : st.readable now = true → batch.length < maxEvents → batch.any Ready.isTimer = true

/-- What the owner of the loop does. -/
inductive Op
  | scheduleTimer (call : Call)
  | pollOnce (now : ℕ) (batch : List Ready)
  deriving DecidableEq, Repr

/-- The clock during an operation. -/
def Op.times : Op → List ℕ
  | .scheduleTimer call => [call.now]
  | .pollOnce now batch => now :: batch.flatMap Ready.times

/-- The operation is possible: the clock does not go back, and `epoll_wait` returns a snapshot. -/
def Op.Valid (st : State) (op : Op) : Prop :=
  (st.clock :: op.times).Pairwise (· ≤ ·) ∧
    ∀ now batch, op = .pollOnce now batch → Snapshot st now batch

/-- The loop after an operation. -/
def State.apply (st : State) : Op → State
  | .scheduleTimer call => EpollEventLoop.scheduleTimer st call
  | .pollOnce now batch => (EpollEventLoop.pollOnce st now batch).1

/-- One operation of a run. -/
def Step (st : State) (op : Op) (st' : State) : Prop :=
  op.Valid st ∧ st' = st.apply op

end EpollEventLoop

end AsterNet
