import AsterNet.Engine.Breaker
import AsterNet.Engine.Equiv.Selector
import AsterNet.Engine.Http1.Equiv.Complete
import AsterNet.Engine.Http2.Engine

/-!
# Requests an engine rejects for their own content

The HTTP/1.1 and the HTTP/2 engine reject a request with a line break in its host, method or path, or with
a custom header they cannot forward, before they write anything of it (`Rejects`).  They answer with the
code they give a peer that breaks the protocol, and the selector counts both alike.

`triesOf` lists the engines a run of the selector asks, each with the world in which it is asked and the
one in which its answer is accounted for.

* `asked_tryChain`: these are the engine requests among the events.
* `tryChain_cons`: what one step of a chain does.
* `keptOrEvicted_tryChain`: what a chain leaves of the entries of other engines.
* `counted_of_rejected`: a rejection is counted against the circuit of the engine, whoever asked.
-/

namespace AsterNet

open Effect Prog

/-- The engine request an event is. -/
def Event.asked : Event → Option (EngineType × Request)
  | .engineRequest type attempt => some (type, attempt)
  | _ => none

namespace Http1

/-- A connection is there, and the request is rejected for its content. -/
def Rejects (dial : Dial) (engine : Http1Engine) (req : Request) : Prop :=
  (∃ connection, ensureConnection dial engine.settings engine.connection req = .ok connection) ∧
    ((hasCrlf req.host || hasCrlf req.connectHost || hasCrlf req.method || hasCrlf req.path) = true ∨
      customHeaders req.headers = none)

theorem errCode_of_rejects {dial : Dial} {engine : Http1Engine} {req : Request}
    (h : Rejects dial engine req) : (request dial engine req).1.errCode = .errProtocol := by
  obtain ⟨⟨⟨⟨key, ssl⟩, reused⟩, hconnection⟩, hcontent⟩ := h
  unfold request
  rw [hconnection]
  dsimp only
  split_ifs with hcrlf
  · rfl
  · rw [hcontent.resolve_left hcrlf]

end Http1

namespace Http2

/-- The request is rejected for its content: for a line break before a connection is looked for, and for a
custom header on a connection that is ready. -/
def Rejects (dial : Dial) (outside : Exchange) (engine : Http2Engine) (req : Request) : Prop :=
  (hasCrlf req.host || hasCrlf req.connectHost || hasCrlf req.method || hasCrlf req.path) = true ∨
    (∃ connection reused,
      ensureConnection dial engine.settings engine.connection req = .ok (connection, reused) ∧
        ¬ (reused = false ∧ outside.settings ≠ .ok)) ∧
      outside.alpn = ByteString.ascii "h2" ∧ customHeaders req.headers = none

theorem errCode_of_rejects {dial : Dial} {outside : Exchange} {engine : Http2Engine} {req : Request}
    (h : Rejects dial outside engine req) :
    (request dial outside engine req).1.errCode = .errProtocol := by
  unfold request
  rcases h with hcrlf | ⟨⟨connection, reused, hconnection, hsettings⟩, halpn, hcustom⟩
  · rw [if_pos hcrlf]
  · by_cases hcrlf : (hasCrlf req.host || hasCrlf req.connectHost || hasCrlf req.method ||
      hasCrlf req.path) = true
    · rw [if_pos hcrlf]
    · rw [if_neg hcrlf, hconnection]
      dsimp only
      rw [if_neg hsettings, if_neg (not_not.mpr halpn), hcustom]

end Http2

namespace ProtocolSelector

/-- An engine that is asked, and its answer. -/
structure Try (σ : Type) where
  type : EngineType
  attempt : Request
  code : Result
  /-- The world in which the engine is asked. -/
  asked : World σ
  /-- The world in which the answer is accounted for. -/
  accounted : World σ

/-- The engine is the HTTP/1.1 or the HTTP/2 engine, and rejects the request for its content. -/
def Try.Rejected {σ : Type} (t : Try σ) : Prop :=
  (t.type = .http1 ∧ ∃ dial engine, Http1.Rejects dial engine t.attempt ∧
    t.code = (Http1.request dial engine t.attempt).1.errCode) ∨
  (t.type = .http2 ∧ ∃ dial outside engine, Http2.Rejects dial outside engine t.attempt ∧
    t.code = (Http2.request dial outside engine t.attempt).1.errCode)

theorem Try.Rejected.code_eq {σ : Type} {t : Try σ} (h : t.Rejected) : t.code = .errProtocol := by
  rcases h with ⟨-, dial, engine, hrejects, hcode⟩ | ⟨-, dial, outside, engine, hrejects, hcode⟩
  · rw [hcode, Http1.errCode_of_rejects hrejects]
  · rw [hcode, Http2.errCode_of_rejects hrejects]

section

variable {σ : Type} (env : Env σ) (settings : Settings)

/-- The accounting of an answer. -/
def account (type : EngineType) (req : Request) (code : Result) : Prog σ Unit :=
  if code = .ok then recordSuccess type req
  else if isRetryable code then recordFailure env settings type req
  else pure ()

/-- The chain goes on after an answer. -/
def goesOn (req : Request) (plan : Plan) (code : Result) : Bool :=
  isRetryable code && (plan.allowFallback && req.retrySafe)

/-- The engines a chain asks. -/
def triesOf (req : Request) (plan : Plan) (startMs : ℕ) : List Step → World σ → List (Try σ)
  | [], _ => []
  | step :: rest, w =>
    match env.engine step.type with
    | none => if plan.allowFallback then triesOf req plan startMs rest w else []
    | some engine =>
      let check := circuitAllows env plan step.type req w
      if check.val then
        if timeRemains env req startMs check.post then
          let reply := askEngine env req startMs step.type engine check.post
          let accounted := (account env settings step.type req reply.val.1 reply.post).post
          { type := step.type
            attempt := attemptAt req startMs (env.monotonicMs check.post.out).1
            code := reply.val.1
            asked := check.post
            accounted } ::
            if goesOn req plan reply.val.1 then triesOf req plan startMs rest accounted else []
        else []
      else if plan.allowFallback then triesOf req plan startMs rest check.post else []

/-- The engines a call of `request_with_policy` asks. -/
def triesOfPolicy (req : Request) (policy : ProtocolPolicy) (w : World σ) : List (Try σ) :=
  match planOf policy with
  | none => []
  | some plan =>
    let start := now env .selectorStart w
    triesOf env settings req plan start.val plan.chain start.post

variable {env settings} {req : Request} {plan : Plan} {startMs : ℕ} {step : Step} {rest steps : List Step}
  {w : World σ} {lastError : Result} {degraded : Bool} {attempts : ℤ} {resp : Response}

/-! ### The entries of other engines -/

/-- What the rest of a chain leaves of an entry: it is kept, or it is gone because a full table made
room. -/
def KeptOrEvicted (settings : Settings) (tries : List (Try σ)) (key : Bytes × EngineType)
    (before after : Breakers) : Prop :=
  after.lookup key = before.lookup key ∨
    (after.lookup key = none ∧ ∃ t ∈ tries, settings.maxStates ≤ t.asked.breakers.entries.length)

theorem KeptOrEvicted.mono {tries tries' : List (Try σ)} {key : Bytes × EngineType}
    {before after : Breakers} (h : KeptOrEvicted settings tries key before after)
    (htries : ∀ t ∈ tries, t ∈ tries') : KeptOrEvicted settings tries' key before after := by
  rcases h with h | ⟨h, t, ht, hfull⟩
  · exact .inl h
  · exact .inr ⟨h, t, htries t ht, hfull⟩

theorem KeptOrEvicted.trans {tries : List (Try σ)} {key : Bytes × EngineType}
    {before between after : Breakers} (h : KeptOrEvicted settings tries key before between)
    (h' : KeptOrEvicted settings tries key between after) :
    KeptOrEvicted settings tries key before after := by
  rcases h' with h' | h'
  · unfold KeptOrEvicted
    rw [h']
    exact h
  · exact .inr h'

/-- A failure that is counted changes its entry. -/
theorem lookup_failAt_ne_self (states : Breakers) (key : Bytes × EngineType) (choice nowMs : ℕ) :
    (failAt settings states key choice nowMs).lookup key ≠ states.lookup key := by
  rw [lookup_failAt_self]
  intro heq
  have hfailures := congrArg (fun entry => (entry.getD {}).failures) heq
  dsimp only [Option.getD_some] at hfailures
  rw [failures_failedState] at hfailures
  omega

theorem lookup_circuitAllows_ne (env : Env σ) (plan : Plan) (w : World σ) {type : EngineType}
    {key : Bytes × EngineType} (hne : key ≠ (stateHostKey req, type)) :
    (circuitAllows env plan type req w).post.breakers.lookup key = w.breakers.lookup key := by
  unfold circuitAllows
  rw [Program.ite_apply]
  split_ifs
  · rw [(isAvailable_spec env type req w).2, lookup_checkAt_ne hne]
  · rfl

theorem lookup_account_ne (env : Env σ) (settings : Settings) (code : Result) (w : World σ)
    {type : EngineType} {key : Bytes × EngineType} (hne : key ≠ (stateHostKey req, type)) :
    (account env settings type req code w).post.breakers.lookup key = w.breakers.lookup key ∨
      ((account env settings type req code w).post.breakers.lookup key = none ∧
        settings.maxStates ≤ w.breakers.entries.length) := by
  unfold account
  rw [Program.ite_apply, Program.ite_apply]
  split_ifs
  · rw [recordSuccess_spec, lookup_succeedAt_ne hne]
    exact .inl rfl
  · rw [recordFailure_spec]
    exact lookup_failAt_ne hne
  · exact .inl rfl

/-! ### One step of the chain -/

/-- What an outcome is, once the answer is accounted for. -/
def outcomeOf (env : Env σ) (settings : Settings) (req : Request) (plan : Plan) (startMs : ℕ)
    (step : Step) (rest : List Step) (degraded : Bool) (attempts : ℤ) (reply : Result × Response) :
    Prog σ Outcome :=
  if reply.1 = .ok then
    pure
      { code := .ok
        resp := { reply.2 with protocol := step.proto, degraded, attempts := attempts + 1 }
        actualProto := step.proto
        degraded }
  else if goesOn req plan reply.1 then
    tryChain env settings req plan startMs rest reply.1 true (attempts + 1) reply.2
  else pure (failed reply.1 degraded (attempts + 1) reply.2)

/-- The chain goes on, or there is an outcome. -/
theorem outcomeOf_cases (env : Env σ) (settings : Settings) (req : Request) (plan : Plan) (startMs : ℕ)
    (step : Step) (rest : List Step) (degraded : Bool) (attempts : ℤ) (reply : Result × Response) :
    (goesOn req plan reply.1 = true ∧
      outcomeOf env settings req plan startMs step rest degraded attempts reply =
        tryChain env settings req plan startMs rest reply.1 true (attempts + 1) reply.2) ∨
    (goesOn req plan reply.1 = false ∧ ∃ outcome : Outcome,
      outcomeOf env settings req plan startMs step rest degraded attempts reply = pure outcome) := by
  unfold outcomeOf
  by_cases hok : reply.1 = .ok
  · rw [if_pos hok, hok]
    exact .inr ⟨rfl, _, rfl⟩
  · rw [if_neg hok]
    split_ifs with hgoes
    · exact .inl ⟨hgoes, rfl⟩
    · exact .inr ⟨Bool.not_eq_true _ ▸ hgoes, _, rfl⟩

theorem afterReply_eq (reply : Result × Response) :
    afterReply env settings req plan startMs step rest degraded attempts reply w =
      (outcomeOf env settings req plan startMs step rest degraded attempts reply
        (account env settings step.type req reply.1 w).post).after
          (account env settings step.type req reply.1 w).events := by
  unfold afterReply outcomeOf account goesOn
  by_cases hok : reply.1 = .ok
  · rw [if_pos hok, if_pos hok, if_pos hok]
    rfl
  · rw [if_neg hok, if_neg hok, if_neg hok]
    rcases hretryable : isRetryable reply.1 with - | -
    · rfl
    · rfl

/-- What one step of the chain does: the engine it asks, if any, the world behind it and its events. -/
structure Stepped (env : Env σ) (settings : Settings) (req : Request) (step : Step) (w : World σ)
    (tried : List (Try σ)) (w' : World σ) (events : List Event) : Prop where
  asked : events.filterMap Event.asked = tried.map fun t => (t.type, t.attempt)
  kept : ∀ key, key ≠ (stateHostKey req, step.type) →
    KeptOrEvicted settings tried key w.breakers w'.breakers
  accounted : ∀ t ∈ tried, t.type = step.type ∧ t.accounted = w' ∧ ∃ replied : World σ,
    replied.breakers = t.asked.breakers ∧ w' = (account env settings t.type req t.code replied).post

theorem asked_circuitAllows (env : Env σ) (plan : Plan) (type : EngineType) (req : Request)
    (w : World σ) : (circuitAllows env plan type req w).events.filterMap Event.asked = [] := by
  refine List.filterMap_eq_nil_iff.mpr ?_
  exact emits_circuitAllows (P := fun e => e.asked = none) (fun _ _ => rfl) plan type w

theorem asked_account (env : Env σ) (settings : Settings) (type : EngineType) (req : Request)
    (code : Result) (w : World σ) :
    (account env settings type req code w).events.filterMap Event.asked = [] := by
  refine List.filterMap_eq_nil_iff.mpr ?_
  refine Program.emits_ite (P := fun e : Event => e.asked = none)
    (fun _ => emits_recordSuccess type) (fun _ => ?_) w
  exact Program.emits_ite (fun _ => emits_recordFailure settings (fun _ _ => rfl) type)
    fun _ => Program.emits_pure

/-- A step that asks no engine. -/
theorem stepped_of_check (env : Env σ) (settings : Settings) (req : Request) (plan : Plan) (step : Step)
    (w w' : World σ) (events : List Event)
    (hbreakers : w'.breakers = (circuitAllows env plan step.type req w).post.breakers)
    (hevents : events.filterMap Event.asked = []) :
    Stepped env settings req step w [] w'
      ((circuitAllows env plan step.type req w).events ++ events) where
  asked := by
    rw [List.filterMap_append, asked_circuitAllows, hevents]
    rfl
  kept key hne := by
    rw [hbreakers]
    exact .inl (lookup_circuitAllows_ne env plan w hne)
  accounted t ht := by cases ht

/-- The engine of a step that is asked in the world `w`. -/
def tryOf (env : Env σ) (settings : Settings) (req : Request) (startMs : ℕ) (step : Step)
    (engine : Request → σ → (Result × Response) × σ) (w : World σ) : Try σ :=
  let reply := askEngine env req startMs step.type engine w
  { type := step.type
    attempt := attemptAt req startMs (env.monotonicMs w.out).1
    code := reply.val.1
    asked := w
    accounted := (account env settings step.type req reply.val.1 reply.post).post }

/-- A step that asks its engine. -/
theorem stepped_of_reply (env : Env σ) (settings : Settings) (req : Request) (plan : Plan) (startMs : ℕ)
    (step : Step) (engine : Request → σ → (Result × Response) × σ) (w : World σ) :
    let check := circuitAllows env plan step.type req w
    let reply := askEngine env req startMs step.type engine check.post
    let t := tryOf env settings req startMs step engine check.post
    Stepped env settings req step w [t] t.accounted
      (check.events ++ (reply.events ++
        (account env settings step.type req reply.val.1 reply.post).events)) where
  -- one engine request, and it is that of the step
  asked := by
    rw [List.filterMap_append, asked_circuitAllows, List.filterMap_append, asked_account,
      events_askEngine]
    rfl
  -- of the other entries the account may take one out, when the table is full
  kept key hne := by
    have hcheck : KeptOrEvicted settings [tryOf env settings req startMs step engine
        (circuitAllows env plan step.type req w).post] key w.breakers
        (circuitAllows env plan step.type req w).post.breakers :=
      .inl (lookup_circuitAllows_ne env plan w hne)
    refine hcheck.trans ?_
    -- the engine itself does not touch the table
    rcases lookup_account_ne env settings _ (askEngine env req startMs step.type engine
      (circuitAllows env plan step.type req w).post).post hne with h | ⟨h, hfull⟩
    · exact .inl h
    · exact .inr ⟨h, _, List.mem_singleton_self _, hfull⟩
  -- the account is made in the world the reply left
  accounted t ht := by
    obtain rfl := List.mem_singleton.mp ht
    exact ⟨rfl, rfl, (askEngine env req startMs step.type engine
      (circuitAllows env plan step.type req w).post).post, rfl, rfl⟩

/-- The first step of a chain: the chain ends with it, or goes on behind it. -/
theorem tryChain_cons (env : Env σ) (settings : Settings) (req : Request) (plan : Plan) (startMs : ℕ)
    (step : Step) (rest : List Step) (w : World σ) (lastError : Result) (degraded : Bool)
    (attempts : ℤ) (resp : Response) :
    ∃ tried w' events, Stepped env settings req step w tried w' events ∧
      ((triesOf env settings req plan startMs (step :: rest) w = tried ∧ ∃ outcome,
          tryChain env settings req plan startMs (step :: rest) lastError degraded attempts resp w =
            ⟨outcome, w', events⟩) ∨
        (triesOf env settings req plan startMs (step :: rest) w =
            tried ++ triesOf env settings req plan startMs rest w' ∧
          ∃ lastError' degraded' attempts' resp',
            tryChain env settings req plan startMs (step :: rest) lastError degraded attempts resp w =
              (tryChain env settings req plan startMs rest lastError' degraded' attempts' resp'
                w').after events)) := by
  -- the chain is taken as far as its first step goes, branch by branch
  rw [triesOf]
  rcases hengine : env.engine step.type with - | engine
  · -- the engine is not built
    refine ⟨[], w, [], ⟨rfl, fun key _ => .inl rfl, fun t ht => by cases ht⟩, ?_⟩
    rw [tryChain_missing hengine]
    split_ifs
    · exact .inr ⟨rfl, _, _, _, _, rfl⟩
    · exact .inl ⟨rfl, _, rfl⟩
  · dsimp only
    rcases hallows : (circuitAllows env plan step.type req w).val with - | -
    · -- the circuit is open
      refine ⟨[], _, _, stepped_of_check env settings req plan step w _ [] rfl rfl, ?_⟩
      rw [tryChain_open hengine hallows, if_neg Bool.false_ne_true, List.append_nil]
      split_ifs
      · exact .inr ⟨rfl, _, _, _, _, rfl⟩
      · exact .inl ⟨rfl, failed .errDegraded degraded attempts resp, Program.pure_after _ _ _⟩
    · rw [if_pos rfl]
      rcases htime : timeRemains env req startMs (circuitAllows env plan step.type req w).post with - | -
      · -- there is no time left
        let late := now env .selectorElapsed (circuitAllows env plan step.type req w).post
        refine ⟨[], _, _, stepped_of_check env settings req plan step w late.post late.events rfl rfl,
          .inl ⟨rfl, failed .errTimeout degraded attempts resp, ?_⟩⟩
        rw [tryChain_late hengine hallows htime]
        rfl
      · -- the engine is asked
        refine ⟨_, _, _, stepped_of_reply env settings req plan startMs step engine w, ?_⟩
        rw [tryChain_asked hengine hallows htime, Program.bind_apply_after, afterReply_eq, if_pos rfl,
          Outcome.after_after, Outcome.after_after, List.append_assoc]
        -- the outcome is retryable and there is a fallback, or it ends the chain
        rcases outcomeOf_cases env settings req plan startMs step rest degraded attempts
          (askEngine env req startMs step.type engine
            (circuitAllows env plan step.type req w).post).val with ⟨hgoes, heq⟩ | ⟨hgoes, outcome, heq⟩
        · rw [heq, if_pos hgoes]
          exact .inr ⟨rfl, _, _, _, _, rfl⟩
        · rw [heq, hgoes, if_neg Bool.false_ne_true]
          exact .inl ⟨rfl, outcome, Program.pure_after _ _ _⟩

/-! ### The chain -/

/-- The engine requests among the events are the tries. -/
theorem asked_tryChain (lastError : Result) (degraded : Bool) (attempts : ℤ) (resp : Response) :
    (tryChain env settings req plan startMs steps lastError degraded attempts resp w).events.filterMap
      Event.asked =
      (triesOf env settings req plan startMs steps w).map fun t => (t.type, t.attempt) := by
  induction steps generalizing lastError degraded attempts resp w with
  | nil => rfl
  | cons step rest ih =>
    obtain ⟨tried, w', events, hstepped, ⟨htries, outcome, heq⟩ | ⟨htries, _, _, _, _, heq⟩⟩ :=
      tryChain_cons env settings req plan startMs step rest w lastError degraded attempts resp
    · rw [heq, htries]
      exact hstepped.asked
    · rw [heq, htries, Outcome.after_events, List.filterMap_append, hstepped.asked, ih, List.map_append]

/-- **What a chain leaves of the entries of other engines.** -/
theorem keptOrEvicted_tryChain {key : Bytes × EngineType}
    (hkey : ∀ step ∈ steps, key ≠ (stateHostKey req, step.type)) (lastError : Result) (degraded : Bool)
    (attempts : ℤ) (resp : Response) :
    KeptOrEvicted settings (triesOf env settings req plan startMs steps w) key w.breakers
      (tryChain env settings req plan startMs steps lastError degraded attempts resp
        w).post.breakers := by
  induction steps generalizing lastError degraded attempts resp w with
  | nil => exact .inl rfl
  | cons step rest ih =>
    have hrest : ∀ step ∈ rest, key ≠ (stateHostKey req, step.type) :=
      fun step hstep => hkey step (List.mem_cons_of_mem _ hstep)
    obtain ⟨tried, w', events, hstepped, ⟨htries, outcome, heq⟩ | ⟨htries, _, _, _, _, heq⟩⟩ :=
      tryChain_cons env settings req plan startMs step rest w lastError degraded attempts resp
    · rw [heq, htries]
      exact hstepped.kept key (hkey step List.mem_cons_self)
    · rw [heq, htries, Outcome.after_post]
      have hstep := (hstepped.kept key (hkey step List.mem_cons_self)).mono
        fun t ht => List.mem_append_left (triesOf env settings req plan startMs rest w') ht
      exact hstep.trans ((ih hrest _ _ _ _).mono fun t ht => List.mem_append_right _ ht)

/-- What a try is: its accounting, and what the chain leaves of the entry of its engine. -/
theorem spec_of_mem_triesOf (hnodup : (steps.map (·.type)).Nodup) (lastError : Result) (degraded : Bool)
    (attempts : ℤ) (resp : Response) {t : Try σ}
    (ht : t ∈ triesOf env settings req plan startMs steps w) :
    (∃ replied : World σ, replied.breakers = t.asked.breakers ∧
      t.accounted = (account env settings t.type req t.code replied).post) ∧
    KeptOrEvicted settings (triesOf env settings req plan startMs steps w) (stateHostKey req, t.type)
      t.accounted.breakers
      (tryChain env settings req plan startMs steps lastError degraded attempts resp
        w).post.breakers := by
  -- the induction is on the steps: the try is of the first one, or of one behind it
  induction steps generalizing lastError degraded attempts resp w with
  | nil => cases ht
  | cons step rest ih =>
    obtain ⟨hnotMem, hnodup⟩ := List.nodup_cons.mp hnodup
    obtain ⟨tried, w', events, hstepped, ⟨htries, outcome, heq⟩ | ⟨htries, _, _, _, _, heq⟩⟩ :=
      tryChain_cons env settings req plan startMs step rest w lastError degraded attempts resp
    · rw [htries] at ht
      obtain ⟨htype, haccounted, replied, hreplied, hpost⟩ := hstepped.accounted t ht
      rw [heq, htries, haccounted]
      exact ⟨⟨replied, hreplied, hpost⟩, .inl rfl⟩
    · rw [htries] at ht ⊢
      rw [heq, Outcome.after_post]
      rcases List.mem_append.mp ht with ht | ht
      · obtain ⟨htype, haccounted, replied, hreplied, hpost⟩ := hstepped.accounted t ht
        rw [haccounted]
        refine ⟨⟨replied, hreplied, hpost⟩, (keptOrEvicted_tryChain ?_ _ _ _ _).mono
          fun t ht => List.mem_append_right _ ht⟩
        -- the later steps have other engines, so other keys
        intro step' hstep' hkey
        rw [htype] at hkey
        have hmem := List.mem_map_of_mem (f := (·.type)) hstep'
        rw [← (Prod.mk.inj hkey).2] at hmem
        exact hnotMem hmem
      · obtain ⟨haccounted, hkept⟩ := ih hnodup _ _ _ _ ht
        exact ⟨haccounted, hkept.mono fun t ht => List.mem_append_right _ ht⟩

/-! ### The selector -/

variable {policy : ProtocolPolicy}

theorem nodup_of_planOf (hplan : planOf policy = some plan) : (plan.chain.map (·.type)).Nodup := by
  cases policy with
  | other value => cases hplan
  | _ =>
    obtain rfl := Option.some.inj hplan
    decide

theorem asked_requestWithPolicy (env : Env σ) (settings : Settings) (req : Request)
    (policy : ProtocolPolicy) (resp : Response) (w : World σ) :
    (requestWithPolicy env settings req policy resp w).events.filterMap Event.asked =
      (triesOfPolicy env settings req policy w).map fun t => (t.type, t.attempt) := by
  rcases hplan : planOf policy with - | plan
  · unfold requestWithPolicy triesOfPolicy
    rw [hplan]
    rfl
  · rw [requestWithPolicy_of_planOf hplan, Outcome.after_events, List.filterMap_append, asked_tryChain]
    unfold triesOfPolicy
    rw [hplan]
    rfl

/-- **A rejection is counted against the circuit.**  The table in which the answer of an engine that
rejects the request for its content is accounted for is not the one in which the engine was asked; and the
entry of the engine at the end of the request is not the one of before either, unless a full table had to
make room in between. -/
theorem counted_of_rejected (env : Env σ) (settings : Settings) (req : Request)
    (policy : ProtocolPolicy) (resp : Response) (w : World σ) {t : Try σ}
    (ht : t ∈ triesOfPolicy env settings req policy w) (hrejected : t.Rejected) :
    (¬ ∀ key, t.accounted.breakers.lookup key = t.asked.breakers.lookup key) ∧
    ((requestWithPolicy env settings req policy resp w).post.breakers.lookup
        (stateHostKey req, t.type) = t.asked.breakers.lookup (stateHostKey req, t.type) →
      ∃ t' ∈ triesOfPolicy env settings req policy w,
        settings.maxStates ≤ t'.asked.breakers.entries.length) := by
  rcases hplan : planOf policy with - | plan
  · unfold triesOfPolicy at ht
    rw [hplan] at ht
    cases ht
  -- the chain begins at the time the clock is first read
  · have htries : triesOfPolicy env settings req policy w = triesOf env settings req plan
        (now env .selectorStart w).val plan.chain (now env .selectorStart w).post := by
      unfold triesOfPolicy
      rw [hplan]
    rw [htries] at ht ⊢
    obtain ⟨⟨replied, hreplied, haccounted⟩, hkept⟩ :=
      spec_of_mem_triesOf (nodup_of_planOf hplan) .errUnsupported false 0 resp ht
    -- the answer is retryable, so it is recorded as a failure
    have hfail : t.accounted.breakers.lookup (stateHostKey req, t.type) ≠
        t.asked.breakers.lookup (stateHostKey req, t.type) := by
      rw [haccounted, hrejected.code_eq, ← hreplied]
      show (recordFailure env settings t.type req replied).post.breakers.lookup _ ≠ _
      rw [recordFailure_spec]
      exact lookup_failAt_ne_self _ _ _ _
    -- the entry at the end is that of the account, or it had to make room
    refine ⟨fun hall => hfail (hall _), fun hsame => ?_⟩
    rw [requestWithPolicy_of_planOf hplan, Outcome.after_post] at hsame
    rcases hkept with hkept | ⟨-, hfull⟩
    · exact absurd (hkept.symm.trans hsame) hfail
    · exact hfull

end

/-! ### A client that several callers share -/

/-- Only HTTP/1.1 is built, and the peer answers every request it gets. -/
def shared : Env ℕ :=
  { refusing with
    engine := fun type =>
      if type = .http1 then
        some fun req t =>
          let reply := (Http1.request (Http1.dialTo Http1.helloSource) {} req).1
          ((reply.errCode, { errCode := reply.errCode, failureStage := reply.failureStage }), t)
      else none }

/-- A header with a blank in its name. -/
def invalidGet : Request :=
  { host := ByteString.ascii "h", headers := [⟨ByteString.ascii "a b", []⟩] }

/-- The world after so many of these requests. -/
def afterInvalid : ℕ → World ℕ
  | 0 => ⟨1, ∅⟩
  | n + 1 => (requestWithPolicy shared {} invalidGet .auto {} (afterInvalid n)).post

/-- The HTTP/1.1 engine that rejects the request. -/
def invalidTry : Try ℕ :=
  tryOf shared {} invalidGet 1 h1Step
    (fun req t =>
      let reply := (Http1.request (Http1.dialTo Http1.helloSource) {} req).1
      ((reply.errCode, { errCode := reply.errCode, failureStage := reply.failureStage }), t)) ⟨1, ∅⟩

theorem triesOfPolicy_invalidGet :
    triesOfPolicy shared {} invalidGet .auto ⟨1, ∅⟩ = [invalidTry] := by
  rfl

theorem rejected_invalidTry : invalidTry.Rejected :=
  .inl ⟨rfl, Http1.dialTo Http1.helloSource, {}, ⟨⟨_, rfl⟩, .inr (by decide)⟩, rfl⟩

theorem counted_invalidTry :
    ¬ ∀ key, invalidTry.accounted.breakers.lookup key = invalidTry.asked.breakers.lookup key :=
  (counted_of_rejected shared {} invalidGet .auto {} ⟨1, ∅⟩
    (triesOfPolicy_invalidGet ▸ List.mem_singleton_self _) rejected_invalidTry).1

/-- The request of one caller is rejected and changes the table.  After three of them a good request of
another caller to the same host, which would have been answered before, is refused. -/
theorem not_unblamed :
    (¬ ∀ t ∈ triesOfPolicy shared {} invalidGet .auto ⟨1, ∅⟩, t.Rejected →
      ∀ key, t.accounted.breakers.lookup key = t.asked.breakers.lookup key) ∧
    (requestWithPolicy shared {} Http1.fiveBytesRequest .auto {} (afterInvalid 0)).val.code = .ok ∧
    (requestWithPolicy shared {} Http1.fiveBytesRequest .auto {} (afterInvalid 3)).val.code =
      .errDegraded := by
  refine ⟨fun hall => ?_, by decide +kernel, by decide +kernel⟩
  have hsame := hall invalidTry (triesOfPolicy_invalidGet ▸ List.mem_singleton_self _)
    rejected_invalidTry (stateHostKey invalidGet, .http1)
  exact absurd hsame (by decide +kernel)

end ProtocolSelector

end AsterNet
