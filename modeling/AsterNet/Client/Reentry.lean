import AsterNet.Lib.SharedMutex
import AsterNet.Lib.Transition
import Mathlib.Data.Fintype.Defs

/-!
# Calls from callbacks (`client.cpp`)

Any number of threads call any number of clients, and the callbacks that a call makes on its own thread, for
a log line or a change of the quality, may call clients again.  Each thread has a stack of calls (`Frame`),
and the clients of its requests in `g_active_clients`, which is `thread_local`.

A call is known by where it takes `lifecycle_mutex_` of its client, in which mode, and where it calls back:
the selector and the engines log while a request holds it, and the callback for the quality comes after it
was given back.  The clients are not destroyed.
-/

namespace AsterNet

namespace Client

namespace Reentry

/-- `kMaxActiveClients`. -/
def kMaxActiveClients : ℕ := 32

/-- What is called. -/
inductive Entry
  | request
  | onNetworkChange
  | dumpDiag
  | prefetch
  | traceRoute
  | setMetricsCollector
  | setQualityChangeCallback
  deriving DecidableEq, Repr

namespace Entry

/-- How it takes `lifecycle_mutex_` first. -/
def mode : Entry → LockMode
  | .request | .dumpDiag | .prefetch | .traceRoute => .shared
  | .onNetworkChange | .setMetricsCollector | .setQualityChangeCallback => .exclusive

/-- It may end with `publish_quality_change`. -/
def publishes : Entry → Bool
  | .request | .onNetworkChange | .setQualityChangeCallback => true
  | _ => false

/-- It looks at `is_active_client` first. -/
def guarded : Entry → Bool
  | .request | .onNetworkChange | .dumpDiag => true
  | _ => false

end Entry

/-- Where a call is. -/
inductive Stage
  /-- It waits for `lifecycle_mutex_`. -/
  | entering
  | inside
  /-- It has given it back. -/
  | left
  /-- It waits for it again, in `publish_quality_change`. -/
  | publishing
  | updating
  /-- In the callback for the quality. -/
  | calledBack
  deriving DecidableEq, Repr

/-- A call that has not returned. -/
structure Frame (κ : Type) where
  client : κ
  entry : Entry
  stage : Stage
  deriving DecidableEq, Repr

namespace Frame

variable {κ : Type}

/-- How it holds the mutex of its client. -/
def holds (f : Frame κ) : LockMode :=
  match f.stage with
  | .inside => f.entry.mode
  | .updating => .exclusive
  | _ => .free

/-- How it waits for it. -/
def waits (f : Frame κ) : LockMode :=
  match f.stage with
  | .entering => f.entry.mode
  | .publishing => .exclusive
  | _ => .free

/-- It is in a callback: a log line of a request or of a failed dump, or the quality. -/
def callsBack (f : Frame κ) : Bool :=
  match f.stage, f.entry with
  | .inside, .request => true
  | .left, .dumpDiag => true
  | .calledBack, _ => true
  | _, _ => false

end Frame

/-- The threads, each with its calls, the innermost first, and its `g_active_clients`. -/
structure Machine (κ ι : Type) where
  stack : ι → List (Frame κ) := fun _ => []
  active : ι → List κ := fun _ => []

/-- What a thread may do. -/
inductive Act (κ ι : Type)
  | call (t : ι) (client : κ) (entry : Entry)
  /-- The mutex is taken. -/
  | lock (t : ι)
  | unlock (t : ι)
  /-- `publish_quality_change` is called. -/
  | publish (t : ι)
  | leave (t : ι)
  deriving DecidableEq, Repr

/-- A call that a client has been given. -/
def Act.isCall {κ ι : Type} : Act κ ι → Bool
  | .call .. => true
  | _ => false

namespace Machine

variable {κ ι : Type} [DecidableEq κ] [DecidableEq ι] [Fintype ι] (m : Machine κ ι)

/-- The mutex of a client can be taken in a mode. -/
def Available (client : κ) (mode : LockMode) : Prop :=
  ∀ t, ∀ f ∈ m.stack t, f.client = client → f.holds ≠ .exclusive ∧ (mode = .exclusive → f.holds = .free)

instance (client : κ) (mode : LockMode) : Decidable (m.Available client mode) :=
  inferInstanceAs (Decidable (∀ _, _))

/-- The call returns at once: the client is in a request of the thread, or there are too many. -/
def refused (t : ι) (client : κ) (entry : Entry) : Bool :=
  entry.guarded && decide (client ∈ m.active t) ||
    entry == .request && decide (kMaxActiveClients ≤ (m.active t).length)

/-- The calls of a thread are changed. -/
def setStack (t : ι) (stack : List (Frame κ)) : Machine κ ι :=
  { m with stack := Function.update m.stack t stack }

/-- A call begins: a request is entered into `g_active_clients`. -/
def enter (t : ι) (client : κ) (entry : Entry) : Machine κ ι :=
  { m.setStack t (⟨client, entry, .entering⟩ :: m.stack t) with
    active := if entry = .request then Function.update m.active t (m.active t ++ [client]) else m.active }

/-- A call returns: `ActiveRequestGuard` is destroyed. -/
def leave (t : ι) (f : Frame κ) (rest : List (Frame κ)) : Machine κ ι :=
  { m.setStack t rest with
    active := if f.entry = .request then Function.update m.active t (m.active t).dropLast else m.active }

/-- One act, when it can happen. -/
def act : Act κ ι → Option (Machine κ ι)
  | .call t client entry =>
    if (m.stack t).head?.all Frame.callsBack then
      some (if m.refused t client entry then m else m.enter t client entry)
    else none
  | .lock t =>
    match m.stack t with
    | f :: rest =>
      match f.stage with
      | .entering =>
        if m.Available f.client f.waits then some (m.setStack t ({ f with stage := .inside } :: rest)) else none
      | .publishing =>
        if m.Available f.client f.waits then some (m.setStack t ({ f with stage := .updating } :: rest))
        else none
      | _ => none
    | [] => none
  | .unlock t =>
    match m.stack t with
    | f :: rest =>
      match f.stage with
      | .inside => some (m.setStack t ({ f with stage := .left } :: rest))
      | .updating => some (m.setStack t ({ f with stage := .calledBack } :: rest))
      | _ => none
    | [] => none
  | .publish t =>
    match m.stack t with
    | f :: rest =>
      if f.stage = .left ∧ f.entry.publishes then
        some (m.setStack t ({ f with stage := .publishing } :: rest))
      else none
    | [] => none
  | .leave t =>
    match m.stack t with
    | f :: rest => if f.stage = .left ∨ f.stage = .calledBack then some (m.leave t f rest) else none
    | [] => none

end Machine

/-- The steps of the threads. -/
def Steps {κ ι : Type} [DecidableEq κ] [DecidableEq ι] [Fintype ι] (m : Machine κ ι) (a : Act κ ι)
    (m' : Machine κ ι) : Prop :=
  m.act a = some m'

end Reentry

end Client

end AsterNet
