import AsterNet.Lib.DroppingQueue
import AsterNet.Lib.SharedMutex
import AsterNet.Lib.Transition
import AsterNet.Monitor.Metrics

/-!
# The metrics queue of a client (`client.cpp`)

`enqueue_metrics`, `metrics_worker_loop` and `~Client` as steps that interleave: each section under
`metrics_queue_mutex_` is one, and each call of a collector.  A request enqueues at the end of its
shared section under `lifecycle_mutex_`, which it entered while the client was not destroyed; it may
also leave it without.  `~Client` holds the lock exclusively until it joins the worker.  Calls that
return early take no step.

`κ` are the pointers to collectors, and what `report_request` does behind one is not modelled, but for
the built-in collector, which does not throw.  The machine also records what was enqueued, what was
displaced and which calls the collectors got.
-/

namespace AsterNet

namespace Client

namespace MetricsQueue

open DroppingQueue

/-- `kMaxQueuedMetrics`. -/
def kMaxQueuedMetrics : ℕ := 256

/-- `max_events` of the built-in collector. -/
def maxEvents : ℕ := 128

/-- `PendingMetrics`. -/
structure PendingMetrics (κ : Type) where
  metrics : Monitor.RequestMetrics
  collector : Option κ
  deriving DecidableEq, Repr

/-- The collector that is called after the built-in one. -/
def PendingMetrics.ownCollector {κ : Type} [DecidableEq κ] (shadow : κ) (pending : PendingMetrics κ) :
    Option κ :=
  pending.collector.filter fun collector => collector ≠ shadow

/-- Where the worker is.  What it has in its hands comes with its ticket. -/
inductive Worker (κ : Type)
  | waiting
  | took (ticket : ℕ) (pending : PendingMetrics κ)
  | reported (ticket : ℕ) (pending : PendingMetrics κ)
  | ended
  deriving DecidableEq, Repr

/-- A call of the built-in collector. -/
structure ShadowCall where
  ticket : ℕ
  metrics : Monitor.RequestMetrics
  deriving DecidableEq, Repr

/-- A call of another collector. -/
structure CollectorCall (κ : Type) where
  ticket : ℕ
  collector : κ
  metrics : Monitor.RequestMetrics
  threw : Bool
  deriving DecidableEq, Repr

/-- Where a thread is. -/
inductive Phase
  | idle
  -- `request_with_policy`, in its shared section
  | requesting
  | enqueued
  -- `~Client`
  | destroying
  | stopped
  | joining
  | joined
  deriving DecidableEq, Repr

/-- How a thread there holds `lifecycle_mutex_`. -/
def Phase.mode : Phase → LockMode
  | .idle => .free
  | .requesting => .shared
  | .enqueued => .shared
  | .destroying => .exclusive
  | .stopped => .exclusive
  | .joining => .free
  | .joined => .exclusive

/-- The thread runs `~Client`. -/
def Phase.destroys : Phase → Bool
  | .destroying => true
  | .stopped => true
  | .joining => true
  | .joined => true
  | _ => false

/-- A client with its worker and the threads that use it. -/
structure Machine (ι κ : Type) where
  shadow : κ
  mutex : SharedMutex ι := { exclusive := SharedMutex.exclusive_none }
  destroyed : Bool := false
  stop : Bool := false
  queue : List (PendingMetrics κ) := []
  worker : Worker κ := .waiting
  phase : ι → Phase := fun _ => .idle
  collector : Monitor.State := .new maxEvents
  enqueued : List (PendingMetrics κ) := []
  displaced : List (Displacement (PendingMetrics κ)) := []
  shadowCalls : List ShadowCall := []
  collectorCalls : List (CollectorCall κ) := []

/-- A step of a thread or of the worker. -/
inductive Act (ι κ : Type)
  -- `request_with_policy`
  | enter (t : ι)
  | enqueue (t : ι) (pending : PendingMetrics κ)
  | leave (t : ι)
  -- `~Client`
  | destroy (t : ι)
  | requestStop (t : ι)
  | beginJoin (t : ι)
  | join (t : ι)
  -- `metrics_worker_loop`
  | wake
  | reportShadow
  | reportCollector (throws : Bool)
  deriving DecidableEq, Repr

namespace Machine

variable {ι κ : Type} [DecidableEq ι] (m : Machine ι κ)

/-- A thread moves on. -/
def goto (t : ι) (phase : Phase) : Machine ι κ := { m with phase := Function.update m.phase t phase }

omit [DecidableEq ι] in
/-- `enqueue_metrics`. -/
def enqueueMetrics (pending : PendingMetrics κ) : Machine ι κ :=
  { m with
    queue := push kMaxQueuedMetrics m.queue pending
    enqueued := m.enqueued ++ [pending]
    displaced := displace kMaxQueuedMetrics m.enqueued m.queue m.displaced }

omit [DecidableEq ι] in
/-- The worker leaves its wait. -/
def wake : Machine ι κ :=
  match m.queue with
  | [] => if m.stop then { m with worker := .ended } else m
  | front :: rest =>
    { m with
      queue := rest
      worker := .took (ticket m.enqueued (front :: rest)) front }

omit [DecidableEq ι] in
/-- The built-in collector is called. -/
def reportShadow (ticket : ℕ) (pending : PendingMetrics κ) : Machine ι κ :=
  { m with
    collector := Monitor.reportRequest m.collector pending.metrics
    shadowCalls := m.shadowCalls ++ [⟨ticket, pending.metrics⟩]
    worker := .reported ticket pending }

omit [DecidableEq ι] in
/-- The other collector is called, when there is one; what it throws is caught. -/
def reportCollector [DecidableEq κ] (ticket : ℕ) (pending : PendingMetrics κ) (throws : Bool) :
    Machine ι κ :=
  match pending.ownCollector m.shadow with
  | none => { m with worker := .waiting }
  | some collector =>
    { m with
      collectorCalls := m.collectorCalls ++ [⟨ticket, collector, pending.metrics, throws⟩]
      worker := .waiting }

/-- One step, when it can be taken. -/
def act [DecidableEq κ] : Act ι κ → Option (Machine ι κ)
  | .enter t =>
    match m.phase t with
    | .idle =>
      if m.destroyed then none
      else (m.mutex.lockShared t).map fun mutex => { m with mutex }.goto t .requesting
    | _ => none
  | .enqueue t pending =>
    match m.phase t with
    | .requesting => some ((m.enqueueMetrics pending).goto t .enqueued)
    | _ => none
  | .leave t =>
    match m.phase t with
    | .requesting => some ({ m with mutex := m.mutex.unlockShared t }.goto t .idle)
    | .enqueued => some ({ m with mutex := m.mutex.unlockShared t }.goto t .idle)
    | _ => none
  | .destroy t =>
    match m.phase t with
    | .idle =>
      if m.destroyed then none
      else (m.mutex.lock t).map fun mutex => { m with mutex, destroyed := true }.goto t .destroying
    | _ => none
  | .requestStop t =>
    match m.phase t with
    | .destroying => some ({ m with stop := true }.goto t .stopped)
    | _ => none
  | .beginJoin t =>
    match m.phase t with
    | .stopped => some ({ m with mutex := m.mutex.unlock }.goto t .joining)
    | _ => none
  | .join t =>
    match m.phase t, m.worker with
    | .joining, .ended => (m.mutex.lock t).map fun mutex => { m with mutex }.goto t .joined
    | _, _ => none
  | .wake =>
    match m.worker with
    | .waiting => if m.stop || !m.queue.isEmpty then some m.wake else none
    | _ => none
  | .reportShadow =>
    match m.worker with
    | .took ticket pending => some (m.reportShadow ticket pending)
    | _ => none
  | .reportCollector throws =>
    match m.worker with
    | .reported ticket pending => some (m.reportCollector ticket pending throws)
    | _ => none

end Machine

/-- The steps of the threads and of the worker. -/
def Steps {ι κ : Type} [DecidableEq ι] [DecidableEq κ] (m : Machine ι κ) (a : Act ι κ)
    (m' : Machine ι κ) : Prop :=
  m.act a = some m'

/-- A client as constructed. -/
def init (ι : Type) {κ : Type} (shadow : κ) : Machine ι κ := { shadow }

end MetricsQueue

end Client

end AsterNet
