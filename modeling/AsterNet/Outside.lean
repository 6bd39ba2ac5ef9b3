import AsterNet.Connection.Pool
import AsterNet.Dns.Resolver
import AsterNet.Engine.Engine
import AsterNet.Lib.Program
import AsterNet.Sdt.Quality

/-!
# What a request does outside the core

The request pipeline (client, orchestrator, protocol selector) is modelled as programs over a state
`σ` for everything it does not compute itself: the clock, the resolver, the connection pool, the
engines, the quality prober, the table of shared flights.  `Env` holds the operations of that
outside, so a statement about every `Env` and every state is one about every behaviour of them.

Every clock reading and every operation with an effect leaves an `Event`.
-/

namespace AsterNet

open Effect

/-- Where the pipeline reads the monotonic clock. -/
inductive ClockSite
  | requestStart
  | followerWait
  | retryFallback
  | retryRemaining
  | retryBackoff
  | selectorStart
  | selectorElapsed
  | breakerCheck
  | breakerBan
  | requestEnd
  deriving DecidableEq, Repr

/-- What a request leaves behind outside, in order. -/
inductive Event
  | clock (site : ClockSite) (nowMs : ℕ)
  | resolve (host : Bytes) (networkEpoch : ℕ) (timeoutMs : ℤ)
  | resolved (resolution : Dns.ResolveResult)
  | engineRequest (type : EngineType) (request : Request)
  | sleep (ms : ℤ)
  | reportConnectionResult (host ip : Bytes) (networkEpoch : ℕ) (success : Bool) (rttMs : ℤ)
  | observe (success : Bool) (rttMs : ℤ)
  deriving DecidableEq, Repr

/-- How the coalescer's table receives a key: it is full, the caller leads a new flight, or the
caller follows one. -/
inductive Flight
  | full
  | leader
  | follower
  deriving DecidableEq, Repr

/-- The operations of the outside. -/
structure Env (σ : Type) where
  monotonicMs : σ → ℕ × σ
  sleepFor : ℤ → σ → σ
  /-- `dns_resolver_->resolve_with_metadata`. -/
  resolveWithMetadata : Bytes → ℕ → ℤ → σ → Dns.ResolveResult × σ
  reportConnectionResult : Bytes → Bytes → ℕ → Bool → ℤ → σ → σ
  acquire : Origin → σ → ConnectionLease × σ
  release : ConnectionLease → Bool → σ → σ
  /-- `NetworkEngine::request` of each engine that was built. -/
  engine : EngineType → Option (Request → σ → (Result × Response) × σ)
  observe : Bool → ℤ → σ → σ
  isWeakNet : σ → Bool × σ
  snapshot : σ → QualitySnapshot × σ
  /-- The coalescer's table: take a key, wait for the flight's result, publish it. -/
  joinFlight : Bytes → σ → Flight × σ
  waitFlight : Bytes → ℤ → σ → Option (Result × Response × Bool) × σ
  publishFlight : Bytes → Result → Response → Bool → σ → σ
  /-- A choice of an `unordered_map`'s iteration order. -/
  pick : σ → ℕ × σ

/-- `ProtocolSelector::State`. -/
structure BreakerState where
  failures : ℤ := 0
  bannedUntilMs : ℤ := 0
  deriving DecidableEq, Repr

/-- The circuit breaker's table, keyed by host key and engine. -/
abbrev Breakers := AList fun _ : Bytes × EngineType => BreakerState

/-- The state of the pipeline: the outside and the selector's breakers. -/
structure World (σ : Type) where
  out : σ
  breakers : Breakers

/-- A part of the pipeline. -/
abbrev Prog (σ α : Type) := Program Event (World σ) α

namespace Prog

variable {σ α : Type}

/-- An operation of the outside that answers. -/
def ask (f : σ → α × σ) : Prog σ α :=
  Program.call fun w => ((f w.out).1, { w with out := (f w.out).2 })

/-- An operation of the outside that does not answer. -/
def tell (f : σ → σ) : Prog σ Unit := Program.call fun w => ((), { w with out := f w.out })

/-- Read the breakers. -/
def getBreakers : Prog σ Breakers := Program.call fun w => (w.breakers, w)

/-- Replace the breakers. -/
def setBreakers (breakers : Breakers) : Prog σ Unit := Program.call fun w => ((), { w with breakers })

@[simp] theorem ask_apply (f : σ → α × σ) (w : World σ) :
    (ask f : Prog σ α) w = ⟨(f w.out).1, { w with out := (f w.out).2 }, []⟩ := rfl

@[simp] theorem tell_apply (f : σ → σ) (w : World σ) :
    (tell f : Prog σ Unit) w = ⟨(), { w with out := f w.out }, []⟩ := rfl

@[simp] theorem getBreakers_apply (w : World σ) :
    (getBreakers : Prog σ Breakers) w = ⟨w.breakers, w, []⟩ := rfl

@[simp] theorem setBreakers_apply (breakers : Breakers) (w : World σ) :
    (setBreakers breakers : Prog σ Unit) w = ⟨(), { w with breakers }, []⟩ := rfl

section

variable {κ : Type} {M : Monitor Event κ} {pre : κ → Prop}

/-- An operation that answers leaves the events as they are. -/
theorem triple_ask {f : σ → α × σ} {Q : α → Prop} (hQ : ∀ s, Q (f s).1) :
    M.Triple pre (ask f) fun v k => Q v ∧ pre k :=
  Monitor.triple_call fun w _ hk => ⟨hQ w.out, hk⟩

/-- An operation that may answer anything. -/
theorem triple_ask_any {f : σ → α × σ} : M.Triple pre (ask f) fun _ k => pre k :=
  Monitor.triple_call fun _ _ hk => hk

theorem triple_tell {f : σ → σ} : M.Triple pre (tell f) fun _ k => pre k :=
  Monitor.triple_call fun _ _ hk => hk

theorem triple_getBreakers : M.Triple pre (getBreakers : Prog σ Breakers) fun _ k => pre k :=
  Monitor.triple_call fun _ _ hk => hk

theorem triple_setBreakers (breakers : Breakers) :
    M.Triple pre (setBreakers breakers : Prog σ Unit) fun _ k => pre k :=
  Monitor.triple_call fun _ _ hk => hk

end

/-- Read the clock. -/
def now (env : Env σ) (site : ClockSite) : Prog σ ℕ := do
  let t ← ask env.monotonicMs
  Program.emit (.clock site t)
  pure t

@[simp] theorem now_apply (env : Env σ) (site : ClockSite) (w : World σ) :
    now env site w = ⟨(env.monotonicMs w.out).1, { w with out := (env.monotonicMs w.out).2 },
      [.clock site (env.monotonicMs w.out).1]⟩ := rfl

theorem triple_now {κ : Type} {M : Monitor Event κ} {pre : κ → Prop} {post : ℕ → κ → Prop}
    (env : Env σ) (site : ClockSite)
    (h : ∀ k t, pre k → M.ok k (.clock site t) ∧ post t (M.next k (.clock site t))) :
    M.Triple pre (now env site) post := by
  unfold now
  refine Monitor.triple_bind (triple_ask (Q := fun _ => True) fun _ => trivial) fun t => ?_
  have hemit : M.Triple pre (Program.emit (.clock site t) : Prog σ Unit) fun _ k => post t k :=
    Monitor.triple_emit fun k hk => h k t hk
  exact Monitor.triple_of_and fun _ =>
    Monitor.triple_bind hemit fun _ => Monitor.triple_pure fun _ hk => hk

end Prog

/-- `static_cast<int>`. -/
def toInt (x : ℤ) : ℤ := x.bmod (2 ^ 32)

end AsterNet
