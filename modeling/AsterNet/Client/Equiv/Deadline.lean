import AsterNet.Client.Equiv.Trace

/-!
# The deadline of a request

A request started at `t0` with timeout `T` hands timeouts to resolves and engines.  `EndsInTime` says
that each of them ends by `t0 + T`, counted from the latest clock reading before it is handed over.

Each attempt takes its budget, what is left of `T`, before it resolves, and the selector counts that
budget from its own start: the time the resolution and earlier addresses took is spent twice.
`endsInTime_iff` is the exact condition: no time passes between the two readings.
-/

namespace AsterNet

open Effect Prog

/-- The clock readings among the events. -/
def clockReadings (events : List Event) : List ℕ :=
  events.filterMap fun
    | .clock _ t => some t
    | _ => none

/-- What a list of events tells. -/
def ghostOf (events : List Event) : Ghost := events.foldl Ghost.next {}

/-- The timeout a resolve or an engine is handed. -/
def Event.handedTimeout : Event → Option ℤ
  | .resolve _ _ timeoutMs => some timeoutMs
  | .engineRequest _ req => some req.timeoutMs
  | _ => none

/-- Every timeout that is handed over ends by the deadline `started + T`. -/
def EndsInTime (T : ℤ) (events : List Event) : Prop :=
  ∀ before e after, events = before ++ e :: after → ∀ timeoutMs ∈ e.handedTimeout,
    (ghostOf before).last + timeoutMs ≤ (ghostOf before).started + T

/-- No attempt issues anything on a budget taken after the deadline, and no selector run that asks an
engine starts later than its attempt's budget was taken. -/
def BudgetUnspent (T : ℤ) (events : List Event) : Prop :=
  ∀ before e after, events = before ++ e :: after →
    (e.handedTimeout.isSome → (ghostOf before).budget < (ghostOf before).started + T) ∧
    ∀ type req, e = .engineRequest type req → (ghostOf before).start = (ghostOf before).budget

/-! ### The order of the readings -/

/-- The readings of a ghost value come in their order. -/
structure Ghost.Ordered (k : Ghost) : Prop where
  started_le : k.started ≤ k.budget
  budget_le : k.budget ≤ k.start
  start_le : k.start ≤ k.last

theorem Ghost.Ordered.foldl {k : Ghost} (h : k.Ordered) {events : List Event}
    (hclock : (k.last :: clockReadings events).IsChain (· ≤ ·)) :
    (events.foldl Ghost.next k).Ordered := by
  induction events generalizing k with
  | nil => exact h
  | cons e events ih =>
    rw [List.foldl_cons]
    cases e with
    | clock site t =>
      obtain ⟨hle, hrest⟩ := List.isChain_cons_cons.mp hclock
      obtain ⟨h1, h2, h3⟩ := h
      cases site with
      | requestStart => exact ih ⟨le_rfl, le_rfl, le_rfl⟩ hrest
      | retryRemaining => exact ih ⟨by simp only [Ghost.next]; omega, le_rfl, le_rfl⟩ hrest
      | selectorStart => exact ih ⟨h1, by simp only [Ghost.next]; omega, le_rfl⟩ hrest
      | _ => exact ih ⟨h1, h2, by simp only [Ghost.next]; omega⟩ hrest
    | resolved resolution => exact ih ⟨h.1, h.2, h.3⟩ hclock
    | _ => exact ih h hclock

theorem ordered_ghostOf {before : List Event} {e : Event} {after : List Event}
    (hclock : (clockReadings (before ++ e :: after)).IsChain (· ≤ ·)) : (ghostOf before).Ordered := by
  refine Ghost.Ordered.foldl ⟨le_rfl, le_rfl, le_rfl⟩ ?_
  have hbefore : (clockReadings before).IsChain (· ≤ ·) := by
    unfold clockReadings at hclock ⊢
    rw [List.filterMap_append] at hclock
    exact hclock.left_of_append
  cases hread : clockReadings before with
  | nil => simp
  | cons t ts =>
    rw [hread] at hbefore
    exact List.isChain_cons_cons.mpr ⟨Nat.zero_le t, hbefore⟩

/-! ### The arithmetic of the budgets -/

theorem toInt_of_pos {x : ℤ} (h0 : 0 < x) (h : x < 2 ^ 31) : toInt x = x :=
  Int.bmod_eq_of_le (by omega) (by omega)

theorem toInt_lt (x : ℤ) : toInt x < 2 ^ 31 := by
  have := Int.bmod_lt (x := x) (m := 2 ^ 32) (by decide)
  unfold toInt
  omega

/-- A positive budget is what is left exactly when something is left: the cast to `int` makes a
positive number of a deadline that has passed only by wrapping round. -/
theorem toInt_le_iff {x : ℤ} (h : x < 2 ^ 31) (hpos : 0 < toInt x) : toInt x ≤ x ↔ 0 < x := by
  constructor
  · intro hle
    omega
  · intro h0
    rw [toInt_of_pos h0 h]

variable {T : ℤ} {R : Dns.ResolveResult → Prop} {k : Ghost} {e : Event}

/-- One event: it ends in time exactly when its budget is unspent. -/
theorem endsInTime_event_iff (hT : T < 2 ^ 31) (hk : k.Ordered) (hok : (traceMonitor T R).ok k e) :
    (∀ timeoutMs ∈ e.handedTimeout, k.last + timeoutMs ≤ k.started + T) ↔
      (e.handedTimeout.isSome → k.budget < k.started + T) ∧
        ∀ type req, e = .engineRequest type req → k.start = k.budget := by
  obtain ⟨h1, h2, h3⟩ := hk
  have hlt : (k.started : ℤ) + T - k.budget < 2 ^ 31 := by omega
  cases e with
  | resolve host networkEpoch timeoutMs =>
    -- the resolver gets the whole budget that is left
    obtain ⟨rfl, hpos, hlast⟩ := hok
    have hle := toInt_le_iff hlt hpos
    simp only [Event.handedTimeout, Option.mem_some_iff, forall_eq', Option.isSome_some,
      forall_const, reduceCtorEq, false_implies, implies_true, and_true, Ghost.left, hlast]
    omega
  | engineRequest type req =>
    obtain ⟨htimeout, hleft, hpos, -⟩ := hok
    -- an engine gets what its selector has left of it
    have hle := toInt_le_iff hlt hpos
    have hcast : toInt (k.left T - (k.last - k.start)) = k.left T - (k.last - k.start) := by
      refine toInt_of_pos hleft ?_
      have := toInt_lt (k.started + T - k.budget)
      rw [Ghost.left]
      omega
    have hstart : (∀ type' req', Event.engineRequest type req = .engineRequest type' req' →
        k.start = k.budget) ↔ k.start = k.budget :=
      ⟨fun h => h type req rfl, fun h _ _ _ => h⟩
    rw [hstart]
    simp only [Event.handedTimeout, Option.mem_some_iff, forall_eq', Option.isSome_some,
      forall_const, htimeout, hcast]
    -- while the budget lasts, the cast to `int` does nothing
    by_cases h0 : 0 < (k.started : ℤ) + T - k.budget
    · have hbudget : k.left T = k.started + T - k.budget := toInt_of_pos h0 hlt
      rw [hbudget]
      omega
    · -- the budget is spent and its cast wraps around
      have hwrapped : ¬ k.left T ≤ k.started + T - k.budget := fun h => h0 (hle.mp h)
      omega
  | _ => simp [Event.handedTimeout]

namespace Client

variable {σ : Type}

/-- **The deadline is kept exactly when no budget is spent twice**: when the clock does not go on
between the reading an attempt's budget is computed from and the start of each selector run of that
attempt, and no attempt begins after the deadline. -/
theorem endsInTime_iff (env : ClientEnv σ) (config : ClientConfig) (req : Request)
    (policy : ProtocolPolicy) (resp : Response) (w : World σ)
    (hint : effectiveTimeout config req < 2 ^ 31)
    (hclock : (clockReadings (requestWithPolicy env config req policy resp w).events).IsChain
      (· ≤ ·)) :
    EndsInTime (effectiveTimeout config req) (requestWithPolicy env config req policy resp w).events ↔
      BudgetUnspent (effectiveTimeout config req)
        (requestWithPolicy env config req policy resp w).events := by
  have hevents := (Monitor.accepts_iff_forall_split _).mp (accepts_requestWithPolicy
    (R := fun _ => True) env config (fun _ _ _ _ => trivial) req policy resp w {})
  have hone : ∀ before e after,
      (requestWithPolicy env config req policy resp w).events = before ++ e :: after → _ :=
    fun before e after hsplit => endsInTime_event_iff hint (ordered_ghostOf (hsplit ▸ hclock))
      (hevents before e after hsplit)
  constructor
  · intro h before e after hsplit
    exact (hone before e after hsplit).mp (h before e after hsplit)
  · intro h before e after hsplit
    exact (hone before e after hsplit).mpr (h before e after hsplit)

/-! ### A resolution that takes time -/

/-- An outside whose state is its clock.  A resolution takes `dnsMs`, or as long as it may; HTTP/1.1
answers at once. -/
def slowDns (dnsMs : ℕ) : ClientEnv ℕ where
  monotonicMs t := (t, t)
  sleepFor ms t := t + ms.toNat
  resolveWithMetadata _ _ timeoutMs t :=
    ({ addresses := [{ ip := ByteString.ascii "93.184.216.34" }] }, t + min dnsMs timeoutMs.toNat)
  reportConnectionResult _ _ _ _ _ t := t
  acquire origin t := ({ origin }, t)
  release _ _ t := t
  engine type := if type = .http1 then some fun _ t => ((.ok, { httpStatus := 200 }), t) else none
  observe _ _ t := t
  isWeakNet t := (false, t)
  snapshot t := ({}, t)
  joinFlight _ t := (.leader, t)
  waitFlight _ _ t := (none, t)
  publishFlight _ _ _ _ t := t
  pick t := (0, t)
  nested t := (false, t)
  destroyed t := (false, t)
  nextRequestId t := (1, t)
  networkEpoch t := (1, t)
  reportMetrics _ _ _ t := t
  publishQualityChange _ t := t

/-- The events of a `GET` with a timeout of one second. -/
def slowDnsEvents (dnsMs : ℕ) : List Event :=
  (requestWithPolicy (slowDns dnsMs) {} { host := ByteString.ascii "example.com", timeoutMs := 1000 }
    .http11Only {} ⟨0, ∅⟩).events

theorem endsInTime_slowDnsEvents_iff :
    EndsInTime 1000 (slowDnsEvents 0) ↔ BudgetUnspent 1000 (slowDnsEvents 0) :=
  endsInTime_iff (slowDns 0) {} { host := ByteString.ascii "example.com", timeoutMs := 1000 }
    .http11Only {} ⟨0, ∅⟩ (by decide) (by decide +kernel)

/-- A resolution of 5 ms, within the second it was handed, and the engine is handed a second of its
own: it may work until 1005 ms. -/
theorem not_endsInTime_slowDns :
    (clockReadings (slowDnsEvents 5)).IsChain (· ≤ ·) ∧
    (∀ host networkEpoch timeoutMs t,
      ((slowDns 5).resolveWithMetadata host networkEpoch timeoutMs t).2 ≤ t + timeoutMs.toNat) ∧
    (∀ type engine, (slowDns 5).engine type = some engine →
      ∀ req t, (engine req t).2 ≤ t + req.timeoutMs.toNat) ∧
    ¬ EndsInTime 1000 (slowDnsEvents 5) := by
  refine ⟨by decide +kernel, ?_, ?_, ?_⟩
  · intro _ _ timeoutMs t
    exact Nat.add_le_add_left (min_le_right _ _) t
  · intro type engine hengine req t
    simp only [slowDns] at hengine
    split_ifs at hengine
    obtain rfl := Option.some.inj hengine
    exact Nat.le_add_right t _
  · intro h
    have hlate := h ((slowDnsEvents 5).take 7) ((slowDnsEvents 5).getD 7 (.sleep 0))
      ((slowDnsEvents 5).drop 8) (by decide +kernel) 1000 (by decide +kernel)
    exact absurd hlate (by decide +kernel)

end Client

end AsterNet
