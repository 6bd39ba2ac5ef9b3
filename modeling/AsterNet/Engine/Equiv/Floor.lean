import AsterNet.Engine.Breaker
import AsterNet.Engine.Equiv.Selector

/-!
# HTTP/1.1 at the end of the chain

A call comes to HTTP/1.1 when every earlier protocol of its chain is missing, passed over, or asked and
fails with a retryable error.  `Floored` says that it then asks the HTTP/1.1 engine.  The circuit breaker
may keep it from that: `FloorReady` is that no ban of the circuit is running when the call comes there.

* `exists_tryChain_append`: how the chain goes on behind the steps it has passed.
* `floored_iff`: for one call.
* `forall_floored_iff`: over every run of calls.
-/

namespace AsterNet.ProtocolSelector

open Effect Prog Transition

/-- A call of `request_with_policy`. -/
structure Call where
  request : Request
  policy : ProtocolPolicy := .auto
  resp : Response := {}

section

variable {σ : Type} (env : Env σ) (settings : Settings)

/-- Every step of a part of the chain is passed: its engine is missing, its circuit is open, or it is
asked and fails with a retryable error.  The value is the world behind them. -/
def passes (req : Request) (plan : Plan) (startMs : ℕ) : List Step → World σ → Option (World σ)
  | [], w => some w
  | step :: rest, w =>
    match env.engine step.type with
    | none => passes req plan startMs rest w
    | some engine =>
      let check := circuitAllows env plan step.type req w
      if check.val then
        let reply := askEngine env req startMs step.type engine check.post
        if timeRemains env req startMs check.post ∧ isRetryable reply.val.1 then
          passes req plan startMs rest (recordFailure env settings step.type req reply.post).post
        else none
      else passes req plan startMs rest check.post

/-- The call is replay-safe, its policy ends in HTTP/1.1, and it comes there in the world `w'` with time
left. -/
structure ComesToFloor (call : Call) (w : World σ) (plan : Plan) (w' : World σ) : Prop where
  safe : call.request.retrySafe = true
  policy : call.policy = .auto ∨ call.policy = .preferHttp3 ∨ call.policy = .preferHttp2
  known : planOf call.policy = some plan
  passed : passes env settings call.request plan (now env .selectorStart w).val plan.chain.dropLast
    (now env .selectorStart w).post = some w'
  time : timeRemains env call.request (now env .selectorStart w).val
    (circuitAllows env plan .http1 call.request w').post = true

/-- A call that comes to HTTP/1.1 asks its engine. -/
def Floored (w : World σ) (call : Call) : Prop :=
  ∀ plan w', ComesToFloor env settings call w plan w' → ∃ attempt, .engineRequest .http1 attempt ∈
    (requestWithPolicy env settings call.request call.policy call.resp w).events

/-- When a call comes to HTTP/1.1, no ban of its circuit is running. -/
def FloorReady (w : World σ) (call : Call) : Prop :=
  ∀ plan w', ComesToFloor env settings call w plan w' →
    (checkAt w'.breakers (Circuit.ofRequest .http1 call.request).key (env.monotonicMs w'.out).1).1 = true

/-- One call after another. -/
def CallStep (w : World σ) (call : Call) (w' : World σ) : Prop :=
  w' = (requestWithPolicy env settings call.request call.policy call.resp w).post

variable {env settings} {req : Request} {plan : Plan} {startMs : ℕ} {front rest : List Step}
  {w w' : World σ} {engine : Request → σ → (Result × Response) × σ}

/-! ### The chain behind the steps it has passed -/

theorem not_ok_of_isRetryable {result : Result} (h : isRetryable result = true) : result ≠ .ok := by
  rintro rfl
  exact absurd h (by decide)

/-- The chain passes a step whose failure is recorded. -/
theorem afterReply_of_isRetryable (hfallback : plan.allowFallback = true) (hsafe : req.retrySafe = true)
    {step : Step} {degraded : Bool} {attempts : ℤ} {reply : Result × Response}
    (hretryable : isRetryable reply.1 = true) :
    afterReply env settings req plan startMs step rest degraded attempts reply w =
      (tryChain env settings req plan startMs rest reply.1 true (attempts + 1) reply.2
        (recordFailure env settings step.type req w).post).after
          (recordFailure env settings step.type req w).events := by
  rw [afterReply, if_neg (not_ok_of_isRetryable hretryable), if_pos hretryable, Program.bind_apply_after,
    hfallback, hsafe]
  rfl

/-- The chain behind the steps it has passed: no other engines were asked. -/
theorem exists_tryChain_append (rest : List Step) (hfallback : plan.allowFallback = true)
    (hsafe : req.retrySafe = true)
    (hpass : passes env settings req plan startMs front w = some w') (lastError : Result)
    (degraded : Bool) (attempts : ℤ) (resp : Response) :
    ∃ lastError' degraded' attempts' resp' events,
      tryChain env settings req plan startMs (front ++ rest) lastError degraded attempts resp w =
        (tryChain env settings req plan startMs rest lastError' degraded' attempts' resp' w').after
          events ∧
      ∀ type attempt, .engineRequest type attempt ∈ events → type ∈ front.map (·.type) := by
  have hclock : ∀ type attempt site t, Event.clock site t ≠ .engineRequest type attempt := by
    intro type attempt site t h
    cases h
  -- the induction is on the steps that are passed; each of them failed in a retryable way
  induction front generalizing w lastError degraded attempts resp with
  | nil =>
    obtain rfl := Option.some.inj hpass
    exact ⟨lastError, degraded, attempts, resp, [], rfl, fun type attempt h => by cases h⟩
  | cons step front ih =>
    rw [List.cons_append]
    unfold passes at hpass
    rcases hengine : env.engine step.type with - | engine
    · -- the engine is not built
      rw [hengine] at hpass
      rw [tryChain_missing hengine, if_pos hfallback]
      obtain ⟨lastError', degraded', attempts', resp', events, heq, hasks⟩ :=
        ih hpass .errUnsupported degraded attempts resp
      exact ⟨lastError', degraded', attempts', resp', events, heq,
        fun type attempt h => List.mem_cons_of_mem _ (hasks type attempt h)⟩
    · rw [hengine] at hpass
      dsimp only at hpass
      have hcheck : ∀ type attempt, .engineRequest type attempt ∉
          (circuitAllows env plan step.type req w).events := by
        intro type attempt h
        exact emits_circuitAllows (P := fun e => e ≠ .engineRequest type attempt)
          (hclock type attempt) plan step.type w _ h rfl
      rcases hallows : (circuitAllows env plan step.type req w).val with - | -
      · -- the circuit is open
        rw [hallows, if_neg Bool.false_ne_true] at hpass
        rw [tryChain_open hengine hallows, if_pos hfallback]
        obtain ⟨lastError', degraded', attempts', resp', events, heq, hasks⟩ :=
          ih hpass .errDegraded true attempts resp
        rw [heq, Outcome.after_after]
        refine ⟨lastError', degraded', attempts', resp', _, rfl, fun type attempt h => ?_⟩
        rcases List.mem_append.mp h with h | h
        · exact absurd h (hcheck type attempt)
        · exact List.mem_cons_of_mem _ (hasks type attempt h)
      · -- the engine is asked, and its failure is recorded
        rw [hallows, if_pos rfl] at hpass
        split_ifs at hpass with hfails
        obtain ⟨htime, hretryable⟩ := hfails
        rw [tryChain_asked hengine hallows htime, Program.bind_apply_after,
          afterReply_of_isRetryable hfallback hsafe hretryable]
        obtain ⟨lastError', degraded', attempts', resp', events, heq, hasks⟩ := ih hpass
          (askEngine env req startMs step.type engine (circuitAllows env plan step.type req w).post).val.1
          true (attempts + 1)
          (askEngine env req startMs step.type engine (circuitAllows env plan step.type req w).post).val.2
        rw [heq, Outcome.after_after, Outcome.after_after, Outcome.after_after]
        refine ⟨lastError', degraded', attempts', resp', _, rfl, fun type attempt h => ?_⟩
        have hrecord : .engineRequest type attempt ∉ (recordFailure env settings step.type req
            (askEngine env req startMs step.type engine
              (circuitAllows env plan step.type req w).post).post).events := by
          intro h
          exact emits_recordFailure (P := fun e => e ≠ .engineRequest type attempt) settings
            (hclock type attempt) step.type _ _ h rfl
        rw [events_askEngine] at h
        simp only [List.mem_append, List.mem_cons, List.not_mem_nil, or_false] at h
        -- only the engine of the step is asked
        rcases h with ((h | h | h) | h) | h
        · exact absurd h (hcheck type attempt)
        · cases h
        · obtain ⟨rfl, -⟩ := Event.engineRequest.inj h
          exact List.mem_cons_self
        · exact absurd h hrecord
        · exact List.mem_cons_of_mem _ (hasks type attempt h)

/-! ### One call -/

/-- At the end of the chain the HTTP/1.1 engine is asked exactly when its circuit allows it. -/
theorem asks_tryChain_h1Step_iff (lastError : Result) (degraded : Bool) (attempts : ℤ) (resp : Response)
    (hengine : env.engine .http1 = some engine)
    (htime : timeRemains env req startMs (circuitAllows env plan .http1 req w).post = true) :
    (∃ attempt, .engineRequest .http1 attempt ∈
      (tryChain env settings req plan startMs [h1Step] lastError degraded attempts resp w).events) ↔
      (circuitAllows env plan .http1 req w).val = true := by
  have hstep : env.engine h1Step.type = some engine := hengine
  constructor
  · rintro ⟨attempt, hasks⟩
    by_contra hallows
    have hopen : (circuitAllows env plan h1Step.type req w).val = false := Bool.not_eq_true _ ▸ hallows
    rw [tryChain_open hstep hopen] at hasks
    rcases List.mem_append.mp hasks with hasks | hasks
    · exact emits_circuitAllows (P := fun e => e ≠ .engineRequest .http1 attempt)
        (fun _ _ h => by cases h) plan .http1 w _ hasks rfl
    · split_ifs at hasks <;> cases hasks
  · intro hallows
    have hclosed : (circuitAllows env plan h1Step.type req w).val = true := hallows
    rw [tryChain_asked hstep hclosed htime]
    obtain ⟨t, hmem⟩ := exists_mem_events_askEngine env req startMs .http1 engine
      (circuitAllows env plan .http1 req w).post
    exact ⟨attemptAt req startMs t, List.mem_append_right _ (List.mem_append_left _ hmem)⟩

/-- **A call asks the HTTP/1.1 engine when it comes there** exactly when no ban of its circuit is running
then. -/
theorem floored_iff (hengine : env.engine .http1 = some engine) (call : Call) :
    Floored env settings w call ↔ FloorReady env settings w call := by
  refine forall_congr' fun plan => forall_congr' fun w' => forall_congr' fun hcomes => ?_
  -- the policies that end at HTTP/1.1, with their chains
  have hplan : plan.allowFallback = true ∧ plan.respectCircuit = true ∧
      plan.chain = plan.chain.dropLast ++ [h1Step] ∧ .http1 ∉ plan.chain.dropLast.map (·.type) := by
    have hknown := hcomes.known
    rcases hcomes.policy with hpolicy | hpolicy | hpolicy
    all_goals
      rw [hpolicy] at hknown
      obtain rfl := Option.some.inj hknown
      decide
  obtain ⟨hfallback, hrespect, hchain, hfront⟩ := hplan
  -- the steps before it ask other engines only
  obtain ⟨lastError, degraded, attempts, resp, events, heq, hasks⟩ :=
    exists_tryChain_append [h1Step] hfallback hcomes.safe hcomes.passed .errUnsupported false 0 call.resp
  have hallows : (circuitAllows env plan .http1 call.request w').val =
      (checkAt w'.breakers (Circuit.ofRequest .http1 call.request).key
        (env.monotonicMs w'.out).1).1 := by
    rw [circuitAllows, hrespect, if_pos rfl]
    exact (isAvailable_spec env .http1 call.request w').1
  rw [← hallows, ← asks_tryChain_h1Step_iff lastError degraded attempts resp hengine hcomes.time,
    requestWithPolicy_of_planOf hcomes.known, hchain, heq, Outcome.after_after]
  refine exists_congr fun attempt => ⟨fun h => ?_, fun h => List.mem_append_right _ h⟩
  rcases List.mem_append.mp h with h | h
  · rcases List.mem_cons.mp h with h | h
    · cases h
    · exact absurd (hasks .http1 attempt h) hfront
  · exact h

/-! ### Runs of calls -/

variable {w₀ : World σ} {calls : List Call}

/-- **HTTP/1.1 is the floor of a run** exactly when no ban of its circuit is running whenever a call comes
to it. -/
theorem forall_floored_iff (hengine : env.engine .http1 = some engine)
    (hrun : Run (CallStep env settings) w₀ calls w) :
    (∀ before call after u, calls = before ++ call :: after →
      Run (CallStep env settings) w₀ before u → Floored env settings u call) ↔
      StepsMeet (CallStep env settings) (FloorReady env settings) w₀ calls w := by
  have hdet : ∀ s l t u, CallStep env settings s l t → CallStep env settings s l u → t = u := by
    rintro s l t u rfl rfl
    rfl
  simp only [floored_iff hengine]
  exact hrun.forall_step_iff_stepsMeet hdet

end

/-! ### A host that refuses every connection -/

def refusedCall : Call := { request := refusedGet }

theorem run_refused (n : ℕ) :
    Run (CallStep refusing {}) (afterRefused 0) (List.replicate n refusedCall) (afterRefused n) := by
  induction n with
  | zero => exact .nil
  | succ n ih =>
    rw [List.replicate_succ']
    exact .snoc ih rfl

theorem floored_refused :
    StepsMeet (CallStep refusing {}) (FloorReady refusing {}) (afterRefused 0) [refusedCall]
      (afterRefused 1) ∧
    ∀ before call after u, [refusedCall] = before ++ call :: after →
      Run (CallStep refusing {}) (afterRefused 0) before u → Floored refusing {} u call := by
  have hmeets : StepsMeet (CallStep refusing {}) (FloorReady refusing {}) (afterRefused 0) [refusedCall]
      (afterRefused 1) := by
    refine .snoc .nil ?_ rfl
    rintro plan w' ⟨-, -, hknown, hpassed, -⟩
    obtain rfl := Option.some.inj hknown
    obtain rfl : afterRefused 0 = w' := Option.some.inj hpassed
    decide
  exact ⟨hmeets, (forall_floored_iff rfl (run_refused 1)).mpr hmeets⟩

/-- After three calls that came to nothing the fourth asks no engine at all. -/
theorem not_floored_refused : ¬ ∀ calls w, Run (CallStep refusing {}) ⟨1, ∅⟩ calls w →
    ∀ call, Floored refusing {} w call := by
  intro hall
  have hcomes : ComesToFloor refusing {} refusedCall (afterRefused 3)
      { chain := [h3Step, h2Step, h1Step] } (afterRefused 3) :=
    { safe := rfl
      policy := .inl rfl
      known := rfl
      passed := rfl
      time := by decide +kernel }
  obtain ⟨attempt, hasks⟩ := hall _ _ (run_refused 3) refusedCall _ _ hcomes
  have hevents : (requestWithPolicy refusing {} refusedGet .auto {} (afterRefused 3)).events =
      [.clock .selectorStart 1, .clock .breakerCheck 1] := by decide +kernel
  rw [show (requestWithPolicy refusing {} refusedCall.request refusedCall.policy refusedCall.resp
    (afterRefused 3)).events = _ from hevents] at hasks
  simp at hasks

end AsterNet.ProtocolSelector
