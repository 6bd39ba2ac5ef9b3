import AsterNet.Engine.ProtocolSelector

/-!
# When the selector asks an engine

`tries` follows the chain without asking anyone: the steps whose engine is missing or whose circuit is
open are passed over, and the first step that is left is tried if there is time.  What an outcome owes to
the response passed in, and whether any engine is asked, is read off it.

* `exists_tried_of_tries`: when an engine is tried, the chain goes on as its step does.
* `tryChain_of_not_tries`: when none is, the outcome is `failed` of that response, and no engine is asked.
* `asks_iff_triesPolicy`: an engine is asked exactly when one is tried.
* `requestWithPolicy_congr_iff`: the outcome is the same for every response passed in exactly when an
  engine is tried.
-/

namespace AsterNet

open Effect Prog

/-- An engine is asked to connect to an address. -/
def Event.Asks (ip : Bytes) : Event → Prop
  | .engineRequest _ attempt => attempt.connectHost = ip
  | _ => False

namespace ProtocolSelector

variable {σ : Type} (env : Env σ) (settings : Settings) (req : Request)

/-- There is time left at the clock's next reading. -/
def timeRemains (startMs : ℕ) (w : World σ) : Bool :=
  0 < (if 0 < req.timeoutMs then req.timeoutMs else 15000) - (((env.monotonicMs w.out).1 : ℤ) - startMs)

/-- The chain comes to an engine it asks. -/
def tries (plan : Plan) (startMs : ℕ) : List Step → World σ → Bool
  | [], _ => false
  | step :: rest, w =>
    match env.engine step.type with
    | none => plan.allowFallback && tries plan startMs rest w
    | some _ =>
      let check := circuitAllows env plan step.type req w
      if check.val then timeRemains env req startMs check.post
      else plan.allowFallback && tries plan startMs rest check.post

/-- `request_with_policy` asks an engine: it knows the policy, and the chain comes to one. -/
def triesPolicy (policy : ProtocolPolicy) (w : World σ) : Bool :=
  match planOf policy with
  | none => false
  | some plan =>
    let start := now env .selectorStart w
    tries env req plan start.val plan.chain start.post

section

variable {env req} {plan : Plan} {startMs : ℕ} {step : Step} {rest steps : List Step} {w : World σ}
  {engine : Request → σ → (Result × Response) × σ}

/-! ### What `tries` says of one step -/

theorem tries_cons_none (hengine : env.engine step.type = none) :
    tries env req plan startMs (step :: rest) w =
      (plan.allowFallback && tries env req plan startMs rest w) := by
  rw [tries, hengine]

theorem tries_cons_some (hengine : env.engine step.type = some engine) :
    tries env req plan startMs (step :: rest) w =
      if (circuitAllows env plan step.type req w).val then
        timeRemains env req startMs (circuitAllows env plan step.type req w).post
      else plan.allowFallback &&
        tries env req plan startMs rest (circuitAllows env plan step.type req w).post := by
  rw [tries, hengine]

theorem timeRemains_eq_true_iff : timeRemains env req startMs w = true ↔
    ¬ (if 0 < req.timeoutMs then req.timeoutMs else 15000) -
      (((env.monotonicMs w.out).1 : ℤ) - startMs) ≤ 0 := by
  rw [timeRemains, decide_eq_true_iff, not_le]

/-! ### What the selector may emit -/

section

variable {P : Event → Prop} (hclock : ∀ site t, P (.clock site t))

include hclock

theorem emits_now (site : ClockSite) : Program.Emits P (now env site) := by
  refine Program.emits_bind Program.emits_call fun t => ?_
  exact Program.emits_bind (Program.emits_emit (hclock site t)) fun _ => Program.emits_pure

theorem emits_circuitAllows (plan : Plan) (type : EngineType) :
    Program.Emits P (circuitAllows env plan type req) := by
  refine Program.emits_ite (fun _ => ?_) fun _ => Program.emits_pure
  unfold isAvailable
  refine Program.emits_bind Program.emits_call fun states => ?_
  rcases states.lookup (stateHostKey req, type) with - | state
  · exact Program.emits_pure
  · refine Program.emits_ite (fun _ => Program.emits_pure) fun _ => ?_
    refine Program.emits_bind (emits_now hclock _) fun t => ?_
    refine Program.emits_ite (fun _ => ?_) fun _ => Program.emits_pure
    exact Program.emits_bind Program.emits_call fun _ => Program.emits_pure

theorem emits_recordFailure (type : EngineType) :
    Program.Emits P (recordFailure env settings type req) := by
  unfold recordFailure
  dsimp only
  refine Program.emits_bind Program.emits_call fun states => ?_
  refine Program.emits_bind Program.emits_call fun choice => ?_
  refine Program.emits_ite (fun _ => ?_) fun _ => Program.emits_call
  exact Program.emits_bind (emits_now hclock _) fun _ => Program.emits_call

omit hclock in
theorem emits_recordSuccess (type : EngineType) :
    Program.Emits P (recordSuccess type req : Prog σ Unit) := by
  unfold recordSuccess
  dsimp only
  refine Program.emits_bind Program.emits_call fun states => ?_
  rcases states.lookup (stateHostKey req, type) with - | state
  · exact Program.emits_pure
  · exact Program.emits_call

end

/-! ### One step of the chain -/

variable {settings} {lastError : Result} {degraded : Bool} {attempts : ℤ} {resp : Response}

/-- The request an engine is asked, with the time that is left at a reading of the clock. -/
def attemptAt (req : Request) (startMs t : ℕ) : Request :=
  { req with
    timeoutMs := toInt ((if 0 < req.timeoutMs then req.timeoutMs else 15000) - ((t : ℤ) - startMs)) }

@[simp] theorem connectHost_attemptAt (req : Request) (startMs t : ℕ) :
    (attemptAt req startMs t).connectHost = req.connectHost := rfl

/-- An engine is asked. -/
def askEngine (env : Env σ) (req : Request) (startMs : ℕ) (type : EngineType)
    (engine : Request → σ → (Result × Response) × σ) : Prog σ (Result × Response) := do
  let t ← now env .selectorElapsed
  engineRequest type engine (attemptAt req startMs t)

theorem events_askEngine (env : Env σ) (req : Request) (startMs : ℕ) (type : EngineType)
    (engine : Request → σ → (Result × Response) × σ) (w : World σ) :
    (askEngine env req startMs type engine w).events =
      [.clock .selectorElapsed (env.monotonicMs w.out).1,
        .engineRequest type (attemptAt req startMs (env.monotonicMs w.out).1)] := rfl

theorem exists_mem_events_askEngine (env : Env σ) (req : Request) (startMs : ℕ) (type : EngineType)
    (engine : Request → σ → (Result × Response) × σ) (w : World σ) :
    ∃ t, .engineRequest type (attemptAt req startMs t) ∈
      (askEngine env req startMs type engine w).events := by
  refine ⟨(env.monotonicMs w.out).1, ?_⟩
  rw [events_askEngine]
  exact List.mem_cons_of_mem _ List.mem_cons_self

/-- What follows an engine's reply. -/
def afterReply (env : Env σ) (settings : Settings) (req : Request) (plan : Plan) (startMs : ℕ)
    (step : Step) (rest : List Step) (degraded : Bool) (attempts : ℤ) (reply : Result × Response) :
    Prog σ Outcome :=
  if reply.1 = .ok then do
    recordSuccess step.type req
    pure
      { code := .ok
        resp := { reply.2 with protocol := step.proto, degraded, attempts := attempts + 1 }
        actualProto := step.proto
        degraded }
  else if isRetryable reply.1 then do
    recordFailure env settings step.type req
    if plan.allowFallback && req.retrySafe then
      tryChain env settings req plan startMs rest reply.1 true (attempts + 1) reply.2
    else pure (failed reply.1 degraded (attempts + 1) reply.2)
  else pure (failed reply.1 degraded (attempts + 1) reply.2)

/-- The engine is not built. -/
theorem tryChain_missing (hengine : env.engine step.type = none) :
    tryChain env settings req plan startMs (step :: rest) lastError degraded attempts resp =
      if plan.allowFallback then
        tryChain env settings req plan startMs rest .errUnsupported degraded attempts resp
      else pure (failed .errUnsupported degraded attempts resp) := by
  rw [tryChain, hengine]

/-- The circuit is open. -/
theorem tryChain_open (hengine : env.engine step.type = some engine)
    (hallows : (circuitAllows env plan step.type req w).val = false) :
    tryChain env settings req plan startMs (step :: rest) lastError degraded attempts resp w =
      ((if plan.allowFallback then
          tryChain env settings req plan startMs rest .errDegraded true attempts resp
        else pure (failed .errDegraded degraded attempts resp))
        (circuitAllows env plan step.type req w).post).after
          (circuitAllows env plan step.type req w).events := by
  rw [tryChain, hengine]
  dsimp only
  rw [Program.bind_apply_after, hallows]
  rfl

/-- There is no time left. -/
theorem tryChain_late (hengine : env.engine step.type = some engine)
    (hallows : (circuitAllows env plan step.type req w).val = true)
    (htime : timeRemains env req startMs (circuitAllows env plan step.type req w).post = false) :
    tryChain env settings req plan startMs (step :: rest) lastError degraded attempts resp w =
      ((do let _ ← now env .selectorElapsed
           pure (failed .errTimeout degraded attempts resp) : Prog σ Outcome)
        (circuitAllows env plan step.type req w).post).after
          (circuitAllows env plan step.type req w).events := by
  have hover : (if 0 < req.timeoutMs then req.timeoutMs else 15000) -
      (((env.monotonicMs (circuitAllows env plan step.type req w).post.out).1 : ℤ) - startMs) ≤ 0 := by
    by_contra hleft
    rw [timeRemains_eq_true_iff.mpr hleft] at htime
    cases htime
  rw [tryChain, hengine]
  dsimp only
  rw [Program.bind_apply_after, hallows, if_pos rfl, Program.bind_apply_after, Program.bind_apply_after,
    now_apply]
  dsimp only
  rw [if_pos hover]

/-- The engine is asked. -/
theorem tryChain_asked (hengine : env.engine step.type = some engine)
    (hallows : (circuitAllows env plan step.type req w).val = true)
    (htime : timeRemains env req startMs (circuitAllows env plan step.type req w).post = true) :
    tryChain env settings req plan startMs (step :: rest) lastError degraded attempts resp w =
      ((askEngine env req startMs step.type engine >>=
          afterReply env settings req plan startMs step rest degraded attempts)
        (circuitAllows env plan step.type req w).post).after
          (circuitAllows env plan step.type req w).events := by
  have hleft := timeRemains_eq_true_iff.mp htime
  rw [tryChain, hengine]
  dsimp only
  rw [Program.bind_apply_after, hallows, if_pos rfl, Program.bind_apply_after, now_apply]
  dsimp only
  rw [if_neg hleft]
  rfl

/-! ### The chain -/

/-- The chain reads the clock, and asks engines to connect to the address of the request. -/
theorem emits_tryChain {P : Event → Prop} (hclock : ∀ site t, P (.clock site t))
    (hasks : ∀ e : Event, e.Asks req.connectHost → P e) (steps : List Step) (lastError : Result)
    (degraded : Bool) (attempts : ℤ) (resp : Response) :
    Program.Emits P
      (tryChain env settings req plan startMs steps lastError degraded attempts resp) := by
  induction steps generalizing lastError degraded attempts resp with
  | nil => exact Program.emits_pure
  | cons step rest ih =>
    unfold tryChain
    rcases env.engine step.type with - | engine
    · exact Program.emits_ite (fun _ => ih _ _ _ _) fun _ => Program.emits_pure
    · refine Program.emits_bind (emits_circuitAllows hclock plan step.type) fun allows => ?_
      refine Program.emits_ite (fun _ => ?_) fun _ =>
        Program.emits_ite (fun _ => ih _ _ _ _) fun _ => Program.emits_pure
      refine Program.emits_bind (emits_now hclock _) fun t => ?_
      refine Program.emits_ite (fun _ => Program.emits_pure) fun _ => ?_
      refine Program.emits_bind ?_ fun reply => ?_
      · refine Program.emits_bind (Program.emits_emit (hasks _ ?_)) fun _ => Program.emits_call
        rfl
      refine Program.emits_ite (fun _ => ?_) fun _ => Program.emits_ite (fun _ => ?_) fun _ =>
        Program.emits_pure
      · exact Program.emits_bind (emits_recordSuccess step.type) fun _ => Program.emits_pure
      · refine Program.emits_bind (emits_recordFailure settings hclock step.type) fun _ => ?_
        exact Program.emits_ite (fun _ => ih _ _ _ _) fun _ => Program.emits_pure

/-- A chain that comes to an engine it asks goes on as that step does, behind the steps it passes over;
the response passed in is not looked at. -/
theorem exists_tried_of_tries (settings : Settings) (lastError : Result) (degraded : Bool)
    (attempts : ℤ) (h : tries env req plan startMs steps w = true) :
    ∃ step rest engine degraded' w' events, ∀ resp,
      tryChain env settings req plan startMs steps lastError degraded attempts resp w =
        ((askEngine env req startMs step.type engine >>=
          afterReply env settings req plan startMs step rest degraded' attempts) w').after events := by
  induction steps generalizing lastError degraded w with
  | nil => cases h
  | cons step rest ih =>
    rcases hengine : env.engine step.type with - | engine
    · rw [tries_cons_none hengine, Bool.and_eq_true] at h
      simp only [tryChain_missing hengine, if_pos h.1]
      exact ih .errUnsupported degraded h.2
    · rw [tries_cons_some hengine] at h
      rcases hallows : (circuitAllows env plan step.type req w).val with - | -
      · rw [hallows, if_neg Bool.false_ne_true, Bool.and_eq_true] at h
        obtain ⟨step', rest', engine', degraded', w', events, hrest⟩ := ih .errDegraded true h.2
        refine ⟨step', rest', engine', degraded', w',
          (circuitAllows env plan step.type req w).events ++ events, fun resp => ?_⟩
        rw [tryChain_open hengine hallows, if_pos h.1, hrest, Outcome.after_after]
      · rw [hallows, if_pos rfl] at h
        exact ⟨step, rest, engine, degraded, _, _, fun resp => tryChain_asked hengine hallows h⟩

/-- When an engine is tried, the response passed in is not looked at. -/
theorem tryChain_congr (resp resp' : Response) (h : tries env req plan startMs steps w = true) :
    tryChain env settings req plan startMs steps lastError degraded attempts resp w =
      tryChain env settings req plan startMs steps lastError degraded attempts resp' w := by
  obtain ⟨step, rest, engine, degraded', w', events, hchain⟩ :=
    exists_tried_of_tries settings lastError degraded attempts h
  rw [hchain, hchain]

/-- An engine that is tried is asked to connect to the address of the request. -/
theorem asks_of_tries (settings : Settings) (lastError : Result) (degraded : Bool) (attempts : ℤ)
    (resp : Response) (h : tries env req plan startMs steps w = true) :
    ∃ e ∈ (tryChain env settings req plan startMs steps lastError degraded attempts resp w).events,
      e.Asks req.connectHost := by
  obtain ⟨step, rest, engine, degraded', w', events, hchain⟩ :=
    exists_tried_of_tries settings lastError degraded attempts h
  obtain ⟨t, hmem⟩ := exists_mem_events_askEngine env req startMs step.type engine w'
  rw [hchain]
  exact ⟨_, List.mem_append_right _ (List.mem_append_left _ hmem), connectHost_attemptAt req startMs t⟩

/-- When no engine is tried, the outcome is the failure of the response passed in, and none is asked. -/
theorem tryChain_of_not_tries (settings : Settings) (lastError : Result) (degraded : Bool)
    (attempts : ℤ) (h : tries env req plan startMs steps w = false) :
    ∃ err degraded' w' events, (∀ resp,
      tryChain env settings req plan startMs steps lastError degraded attempts resp w =
        ⟨failed err degraded' attempts resp, w', events⟩) ∧ ∀ e ∈ events, ∀ ip, ¬ e.Asks ip := by
  -- the induction is on the steps; none of them comes to an engine
  induction steps generalizing lastError degraded w with
  | nil => exact ⟨lastError, degraded, w, [], fun resp => rfl, fun e he => by cases he⟩
  | cons step rest ih =>
    -- an engine that is not built, or a circuit that is open: the chain ends here, or goes on
    rcases hengine : env.engine step.type with - | engine
    · rw [tries_cons_none hengine, Bool.and_eq_false_iff] at h
      simp only [tryChain_missing hengine]
      rcases hfallback : plan.allowFallback with - | -
      · exact ⟨.errUnsupported, degraded, w, [], fun resp => rfl, fun e he => by cases he⟩
      · rw [hfallback] at h
        exact ih _ _ (h.resolve_left (by decide))
    · rw [tries_cons_some hengine] at h
      have hcheck : ∀ e ∈ (circuitAllows env plan step.type req w).events, ∀ ip, ¬ e.Asks ip :=
        emits_circuitAllows (P := fun e => ∀ ip, ¬ e.Asks ip) (fun _ _ _ => not_false) plan step.type w
      rcases hallows : (circuitAllows env plan step.type req w).val with - | -
      · rw [hallows, if_neg Bool.false_ne_true, Bool.and_eq_false_iff] at h
        simp only [tryChain_open hengine hallows]
        rcases hfallback : plan.allowFallback with - | -
        · exact ⟨.errDegraded, degraded, _, _, fun resp => Program.pure_after _ _ _, hcheck⟩
        · rw [hfallback] at h
          obtain ⟨err, degraded', w', events, hrest, hevents⟩ :=
            ih .errDegraded true (h.resolve_left (by decide))
          simp only [if_true, hrest]
          refine ⟨err, degraded', w', (circuitAllows env plan step.type req w).events ++ events,
            fun resp => rfl, fun e he => ?_⟩
          exact (List.mem_append.mp he).elim (hcheck e) (hevents e)
      · rw [hallows, if_pos rfl] at h
        simp only [tryChain_late hengine hallows h]
        -- the clock is read once more, and there is no time left
        let late := now env .selectorElapsed (circuitAllows env plan step.type req w).post
        refine ⟨.errTimeout, degraded, late.post,
          (circuitAllows env plan step.type req w).events ++ late.events, fun resp => rfl, fun e he => ?_⟩
        rcases List.mem_append.mp he with he | he
        · exact hcheck e he
        · obtain rfl := List.mem_singleton.mp he
          exact fun ip => not_false

end

/-! ### The selector -/

section

variable {env settings req} {policy : ProtocolPolicy} {w : World σ}

/-- A policy the selector knows: its chain, after a reading of the clock. -/
theorem requestWithPolicy_of_planOf {plan : Plan} (hplan : planOf policy = some plan)
    (resp : Response) :
    requestWithPolicy env settings req policy resp w =
      (tryChain env settings req plan (now env .selectorStart w).val plan.chain .errUnsupported false 0
        resp (now env .selectorStart w).post).after (now env .selectorStart w).events := by
  unfold requestWithPolicy
  rw [hplan]
  rfl

theorem triesPolicy_of_planOf {plan : Plan} (hplan : planOf policy = some plan) :
    triesPolicy env req policy w = tries env req plan (now env .selectorStart w).val plan.chain
      (now env .selectorStart w).post := by
  unfold triesPolicy
  rw [hplan]

variable (env settings req policy w)

/-- The selector reads the clock, and asks engines to connect to the address of the request. -/
theorem emits_requestWithPolicy {P : Event → Prop} (hclock : ∀ site t, P (.clock site t))
    (hasks : ∀ e : Event, e.Asks req.connectHost → P e) (resp : Response) :
    Program.Emits P (requestWithPolicy env settings req policy resp) := by
  unfold requestWithPolicy
  rcases planOf policy with - | plan
  · exact Program.emits_pure
  · exact Program.emits_bind (emits_now hclock _) fun _ => emits_tryChain hclock hasks _ _ _ _ _

/-- An engine is asked to connect to the address of the request exactly when one is tried. -/
theorem asks_iff_triesPolicy (resp : Response) :
    (∃ e ∈ (requestWithPolicy env settings req policy resp w).events, e.Asks req.connectHost) ↔
      triesPolicy env req policy w = true := by
  rcases hplan : planOf policy with - | plan
  · unfold requestWithPolicy triesPolicy
    rw [hplan]
    simp
  · rw [requestWithPolicy_of_planOf hplan, triesPolicy_of_planOf hplan, Outcome.after_events]
    constructor
    · rintro ⟨e, he, hasks⟩
      by_contra h
      obtain ⟨err, degraded, w', events, hchain, hevents⟩ :=
        tryChain_of_not_tries settings .errUnsupported false 0 (Bool.not_eq_true _ ▸ h)
      rw [hchain] at he
      -- the reading of the clock at the start asks no engine
      rcases List.mem_append.mp he with he | he
      · obtain rfl := List.mem_singleton.mp he
        exact hasks
      · exact hevents e he _ hasks
    · intro h
      obtain ⟨e, he, hasks⟩ := asks_of_tries settings .errUnsupported false 0 resp h
      exact ⟨e, List.mem_append_right _ he, hasks⟩

/-- **The outcome is the same for every response passed in** exactly when an engine is tried. -/
theorem requestWithPolicy_congr_iff :
    (∀ resp resp', (requestWithPolicy env settings req policy resp w).val =
      (requestWithPolicy env settings req policy resp' w).val) ↔
      triesPolicy env req policy w = true := by
  constructor
  · intro hall
    by_contra h
    -- a response that differs in its status leaves with its own status
    have hstatus : ∀ resp : Response,
        (requestWithPolicy env settings req policy resp w).val.resp.httpStatus = resp.httpStatus := by
      intro resp
      rcases hplan : planOf policy with - | plan
      · unfold requestWithPolicy
        rw [hplan]
        rfl
      · rw [triesPolicy_of_planOf hplan] at h
        obtain ⟨err, degraded, w', events, hfailed, -⟩ :=
          tryChain_of_not_tries settings .errUnsupported false 0 (Bool.not_eq_true _ ▸ h)
        rw [requestWithPolicy_of_planOf hplan, Outcome.after_val, hfailed]
        rfl
    have heq := congrArg (·.resp.httpStatus) (hall { httpStatus := 0 } { httpStatus := 1 })
    rw [hstatus, hstatus] at heq
    exact absurd heq (by decide)
  -- with an engine tried, the response passed in is not read any more
  · intro h resp resp'
    rcases hplan : planOf policy with - | plan
    · unfold triesPolicy at h
      rw [hplan] at h
      cases h
    · rw [triesPolicy_of_planOf hplan] at h
      rw [requestWithPolicy_of_planOf hplan, requestWithPolicy_of_planOf hplan,
        tryChain_congr resp resp' h]

end

/-! ### A host that refuses every connection -/

/-- An outside whose state is its clock.  Only HTTP/1.1 is built, and no connection is ever made; every
host has two addresses. -/
def refusing : Env ℕ where
  monotonicMs t := (t, t)
  sleepFor ms t := t + ms.toNat
  resolveWithMetadata _ _ _ t :=
    ({ addresses :=
        [{ ip := ByteString.ascii "93.184.216.34" }, { ip := ByteString.ascii "93.184.216.35" }] }, t)
  reportConnectionResult _ _ _ _ _ t := t
  acquire origin t := ({ origin }, t)
  release _ _ t := t
  engine type :=
    if type = .http1 then some fun _ t => ((.errConnect, { failureStage := "connect" }), t) else none
  observe _ _ t := t
  isWeakNet t := (false, t)
  snapshot t := ({}, t)
  joinFlight _ t := (.leader, t)
  waitFlight _ _ t := (none, t)
  publishFlight _ _ _ _ t := t
  pick t := (0, t)

def refusedGet : Request :=
  { host := ByteString.ascii "h", connectHost := ByteString.ascii "93.184.216.34", retrySafe := true }

/-- The world after so many of these requests. -/
def afterRefused : ℕ → World ℕ
  | 0 => ⟨1, ∅⟩
  | n + 1 => (requestWithPolicy refusing {} refusedGet .auto {} (afterRefused n)).post

/-- The third failure opens the last circuit.  The next address is refused for that, unless the response
of the one before is passed in: then the reason given is the one of the address before. -/
theorem requestWithPolicy_not_congr : ¬ ∀ resp resp',
    (requestWithPolicy refusing {} refusedGet .auto resp (afterRefused 3)).val =
      (requestWithPolicy refusing {} refusedGet .auto resp' (afterRefused 3)).val := by
  intro hall
  have hcode := congrArg Outcome.code (hall {}
    (requestWithPolicy refusing {} refusedGet .auto {} (afterRefused 2)).val.resp)
  exact absurd hcode (by decide +kernel)

end ProtocolSelector

end AsterNet
