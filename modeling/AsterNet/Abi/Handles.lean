import AsterNet.Lib.Transition
import AsterNet.Lib.UnorderedMap
import Mathlib.Algebra.Group.Nat.Defs

/-!
# Client handles of the C ABI (`abi.cpp`)

`asternet_client_create`, `asternet_client_destroy` and the `acquire_client` / `release_client` pair
around every other call.  `ι` names the calls, each of which is made once, on whatever thread.  A
section under the registry's mutex or under a handle's mutex is one step: an acquire looks its token up
(`Act.acquire`) and then checks the handle (`Act.check`), a destroy takes the token out (`Act.destroy`)
and then marks the handle (`Act.mark`).

A handle is an index into `heap`: the object lives as long as a call holds it.
-/

namespace AsterNet.Abi

/-- `ClientHandle`, without its mutex; `client` says that the client is in place. -/
structure ClientHandle where
  client : Bool := true
  activeRequests : ℕ := 0
  destroying : Bool := false
  deriving DecidableEq, Repr

/-- `release_client`, under the handle's mutex. -/
def ClientHandle.released (handle : ClientHandle) : ClientHandle :=
  let activeRequests :=
    if 0 < handle.activeRequests then handle.activeRequests - 1 else handle.activeRequests
  { handle with
    activeRequests
    client := if handle.destroying ∧ activeRequests = 0 then false else handle.client }

/-- What `asternet_client_destroy` makes of a handle. -/
def ClientHandle.marked (handle : ClientHandle) : ClientHandle :=
  { handle with
    destroying := true
    client := if handle.activeRequests = 0 then false else handle.client }

namespace Handles

/-- Where a call is. -/
inductive Phase
  | idle
  /-- An acquire between the registry and the handle. -/
  | checking (handle : ℕ)
  /-- After a successful acquire. -/
  | holding (handle : ℕ)
  /-- A destroy between the registry and the handle. -/
  | marking (token handle : ℕ)
  | returned
  deriving DecidableEq, Repr

/-- The registry, the handles and the calls.  `wordBits` is the width of `uintptr_t`. -/
structure Machine (ι : Type) where
  wordBits : ℕ
  nextHandleId : ℕ := 1
  handles : AList (fun _ : ℕ => ℕ) := ∅
  heap : List ClientHandle := []
  phase : ι → Phase := fun _ => .idle

/-- What happened. -/
inductive Event (ι : Type)
  /-- `asternet_client_create` returned a token. -/
  | created (t : ι) (token handle : ℕ)
  /-- It returned null. -/
  | refused (t : ι)
  /-- `acquire_client` looked a token up. -/
  | acquireStarted (t : ι) (token : ℕ)
  /-- It returned the client of a handle, or null. -/
  | acquireReturned (t : ι) (handle : Option ℕ)
  | released (t : ι) (handle : ℕ)
  /-- `asternet_client_destroy` took a token out of the registry. -/
  | erased (t : ι) (token handle : ℕ)
  /-- It returned; `handle` is what it destroyed, if it found it. -/
  | destroyReturned (t : ι) (token : ℕ) (handle : Option ℕ)
  deriving DecidableEq, Repr

/-- A section of a call. -/
inductive Act (ι : Type)
  | create (t : ι)
  | acquire (t : ι) (token : ℕ)
  | check (t : ι)
  | release (t : ι)
  | destroy (t : ι) (token : ℕ)
  | mark (t : ι)
  deriving DecidableEq, Repr

namespace Machine

variable {ι : Type} [DecidableEq ι] (m : Machine ι)

/-- A call moves on. -/
def goto (t : ι) (phase : Phase) : Machine ι := { m with phase := Function.update m.phase t phase }

@[simp] theorem goto_handles (t : ι) (p : Phase) : (m.goto t p).handles = m.handles := rfl
@[simp] theorem goto_heap (t : ι) (p : Phase) : (m.goto t p).heap = m.heap := rfl
@[simp] theorem goto_nextHandleId (t : ι) (p : Phase) : (m.goto t p).nextHandleId = m.nextHandleId := rfl
@[simp] theorem goto_wordBits (t : ι) (p : Phase) : (m.goto t p).wordBits = m.wordBits := rfl

@[simp] theorem goto_phase_self (t : ι) (p : Phase) : (m.goto t p).phase t = p := by
  simp [goto]

theorem goto_phase_of_ne {t u : ι} (h : u ≠ t) (p : Phase) : (m.goto t p).phase u = m.phase u := by
  simp [goto, h]

/-- A handle of the heap. -/
def handle (i : ℕ) : ClientHandle := m.heap.getD i {}

/-- The largest `uintptr_t`. -/
def uintptrMax : ℕ := 2 ^ m.wordBits - 1

/-- `(g_next_handle_id << 1) | 1`. -/
def token : ℕ := (2 * m.nextHandleId + 1) % 2 ^ m.wordBits

/-- A new handle is registered. -/
def created (t : ι) : Machine ι :=
  { m with
    nextHandleId := (m.nextHandleId + 1) % 2 ^ m.wordBits
    handles := m.handles.insert m.token m.heap.length
    heap := m.heap ++ [({} : ClientHandle)] }.goto t .returned

/-- `asternet_client_create`, with a client that was built. -/
def create (t : ι) : Machine ι × List (Event ι) :=
  if m.uintptrMax / 2 < m.nextHandleId then (m.goto t .returned, [.refused t])
  else (m.created t, [.created t m.token m.heap.length])

/-- The lookup of `acquire_client`. -/
def acquire (t : ι) (token : ℕ) : Machine ι × List (Event ι) :=
  if token = 0 then (m.goto t .returned, [.acquireStarted t token, .acquireReturned t none])
  else
    match m.handles.lookup token with
    | none => (m.goto t .returned, [.acquireStarted t token, .acquireReturned t none])
    | some i => (m.goto t (.checking i), [.acquireStarted t token])

/-- A handle is changed under its mutex. -/
def set (i : ℕ) (handle : ClientHandle) : Machine ι := { m with heap := m.heap.set i handle }

/-- The check of `acquire_client`. -/
def check (t : ι) (i : ℕ) : Machine ι × List (Event ι) :=
  let handle := m.handle i
  if handle.destroying || !handle.client then (m.goto t .returned, [.acquireReturned t none])
  else
    ((m.set i { handle with activeRequests := handle.activeRequests + 1 }).goto t (.holding i),
      [.acquireReturned t (some i)])

/-- `release_client`. -/
def release (t : ι) (i : ℕ) : Machine ι × List (Event ι) :=
  ((m.set i (m.handle i).released).goto t .returned, [.released t i])

/-- A token is taken out of the registry. -/
def erase (token : ℕ) : Machine ι := { m with handles := m.handles.erase token }

/-- The registry section of `asternet_client_destroy`. -/
def destroy (t : ι) (token : ℕ) : Machine ι × List (Event ι) :=
  match m.handles.lookup token with
  | none => (m.goto t .returned, [.destroyReturned t token none])
  | some i => ((m.erase token).goto t (.marking token i), [.erased t token i])

/-- The section of `asternet_client_destroy` under the handle's mutex. -/
def mark (t : ι) (token i : ℕ) : Machine ι × List (Event ι) :=
  ((m.set i (m.handle i).marked).goto t .returned, [.destroyReturned t token (some i)])

/-- One section, when it can run. -/
def act : Act ι → Option (Machine ι × List (Event ι))
  | .create t => if m.phase t = .idle then some (m.create t) else none
  | .acquire t token => if m.phase t = .idle then some (m.acquire t token) else none
  | .check t =>
    match m.phase t with
    | .checking i => some (m.check t i)
    | _ => none
  | .release t =>
    match m.phase t with
    | .holding i => some (m.release t i)
    | _ => none
  | .destroy t token => if m.phase t = .idle then some (m.destroy t token) else none
  | .mark t =>
    match m.phase t with
    | .marking token i => some (m.mark t token i)
    | _ => none

end Machine

/-- A machine with what happened so far. -/
abbrev Trace (ι : Type) := Machine ι × List (Event ι)

section

variable {ι : Type} [DecidableEq ι] {m m' : Machine ι} {h h' : List (Event ι)} {t : ι}

/-- One section, with what it adds to the history. -/
def next (s : Trace ι) (a : Act ι) : Option (Trace ι) :=
  (s.1.act a).map fun r => (r.1, s.2 ++ r.2)

/-- The steps of the calls. -/
def Steps (s : Trace ι) (a : Act ι) (s' : Trace ι) : Prop := next s a = some s'

/-- What one section can come to. -/
inductive Stepped (m : Machine ι) : Machine ι → List (Event ι) → Prop
  | refused (t : ι) (hidle : m.phase t = .idle) : Stepped m (m.goto t .returned) [.refused t]
  | created (t : ι) (hidle : m.phase t = .idle) (hroom : m.nextHandleId ≤ m.uintptrMax / 2) :
      Stepped m (m.created t) [.created t m.token m.heap.length]
  | unknown (t : ι) (token : ℕ) (hidle : m.phase t = .idle)
      (hnone : token = 0 ∨ m.handles.lookup token = none) :
      Stepped m (m.goto t .returned) [.acquireStarted t token, .acquireReturned t none]
  | found (t : ι) (token i : ℕ) (hidle : m.phase t = .idle) (hsome : m.handles.lookup token = some i) :
      Stepped m (m.goto t (.checking i)) [.acquireStarted t token]
  | dead (t : ι) (i : ℕ) (hchecking : m.phase t = .checking i) :
      Stepped m (m.goto t .returned) [.acquireReturned t none]
  | acquired (t : ι) (i : ℕ) (hchecking : m.phase t = .checking i)
      (hlive : (m.handle i).destroying = false) :
      Stepped m
        ((m.set i { m.handle i with activeRequests := (m.handle i).activeRequests + 1 }).goto t
          (.holding i))
        [.acquireReturned t (some i)]
  | released (t : ι) (i : ℕ) (hholding : m.phase t = .holding i) :
      Stepped m ((m.set i (m.handle i).released).goto t .returned) [.released t i]
  | missed (t : ι) (token : ℕ) (hidle : m.phase t = .idle) (hnone : m.handles.lookup token = none) :
      Stepped m (m.goto t .returned) [.destroyReturned t token none]
  | erased (t : ι) (token i : ℕ) (hidle : m.phase t = .idle) (hsome : m.handles.lookup token = some i) :
      Stepped m ((m.erase token).goto t (.marking token i)) [.erased t token i]
  | marked (t : ι) (token i : ℕ) (hmarking : m.phase t = .marking token i) :
      Stepped m ((m.set i (m.handle i).marked).goto t .returned) [.destroyReturned t token (some i)]

theorem Steps.stepped {a : Act ι} (hs : Steps (m, h) a (m', h')) :
    ∃ es, Stepped m m' es ∧ h' = h ++ es := by
  obtain ⟨⟨m₁, es⟩, hact, heq⟩ := Option.map_eq_some_iff.mp hs
  obtain ⟨rfl, rfl⟩ := Prod.mk.inj heq
  refine ⟨es, ?_, rfl⟩
  cases a with
  | create t =>
    rw [Machine.act] at hact
    split_ifs at hact with hidle
    unfold Machine.create at hact
    -- the ids are used up
    split_ifs at hact with hfull
    · cases hact
      exact .refused t hidle
    · cases hact
      exact .created t hidle (Nat.le_of_not_lt hfull)
  | acquire t token =>
    rw [Machine.act] at hact
    split_ifs at hact with hidle
    unfold Machine.acquire at hact
    -- zero is never looked up, and an unknown token finds nothing
    split_ifs at hact with hnull
    · cases hact
      exact .unknown t token hidle (.inl hnull)
    · split at hact
      · case h_1 hnone =>
        cases hact
        exact .unknown t token hidle (.inr hnone)
      · case h_2 i hsome =>
        cases hact
        exact .found t token i hidle hsome
  | check t =>
    rw [Machine.act] at hact
    split at hact
    · case h_1 i hchecking =>
      unfold Machine.check at hact
      dsimp only at hact
      -- a handle whose client is gone, or is about to be, is not held
      split_ifs at hact with hdead
      · cases hact
        exact .dead t i hchecking
      · cases hact
        refine .acquired t i hchecking ?_
        rw [Bool.not_eq_true, Bool.or_eq_false_iff] at hdead
        exact hdead.1
    · cases hact
  | release t =>
    rw [Machine.act] at hact
    split at hact
    · case h_1 i hholding =>
      cases hact
      exact .released t i hholding
    · cases hact
  | destroy t token =>
    rw [Machine.act] at hact
    split_ifs at hact with hidle
    unfold Machine.destroy at hact
    -- of two destroys of one token the later one misses
    split at hact
    · case h_1 hnone =>
      cases hact
      exact .missed t token hidle hnone
    · case h_2 i hsome =>
      cases hact
      exact .erased t token i hidle hsome
  | mark t =>
    rw [Machine.act] at hact
    split at hact
    · case h_1 token i hmarking =>
      cases hact
      exact .marked t token i hmarking
    · cases hact

end

end Handles

end AsterNet.Abi
