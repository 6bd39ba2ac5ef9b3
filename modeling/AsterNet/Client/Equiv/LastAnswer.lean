import AsterNet.Client.Client
import AsterNet.Lib.Ghost

/-!
# Whose result a request returns

`ClientEnv.watched` is the outside of a client with a ghost beside it: the last answer that an engine,
or the flight of an equal request, gave.  No operation reads it.  `watches_requestWithPolicy`: a request
returns `errBufferTooSmall` if and only if this answer was that.  The selector goes on after some
answers and returns the code of an earlier response at times; of `errBufferTooSmall` it makes neither.
-/

namespace AsterNet

open Effect Prog

variable {σ α : Type}

/-! ### The watched outside -/

/-- An operation that leaves the ghost alone. -/
def unseen (f : σ → α × σ) (s : σ × Option Result) : α × (σ × Option Result) :=
  ((f s.1).1, ((f s.1).2, s.2))

/-- An operation without an answer. -/
def unseenTell (f : σ → σ) (s : σ × Option Result) : σ × Option Result := (f s.1, s.2)

/-- What the selector takes for an engine's result. -/
def answerCode (answer : Result × Response) : Result :=
  if answer.1 = .ok then .ok else if answer.2.errCode = .ok then answer.1 else answer.2.errCode

/-- An operation whose answer is noted, when it has a code. -/
def noted (code : α → Option Result) (f : σ → α × σ) (s : σ × Option Result) :
    α × (σ × Option Result) :=
  ((f s.1).1, ((f s.1).2, (code (f s.1).1).or s.2))

/-- The outside with the last answer noted. -/
def Env.watched (env : Env σ) : Env (σ × Option Result) where
  monotonicMs := unseen env.monotonicMs
  sleepFor ms := unseenTell (env.sleepFor ms)
  resolveWithMetadata host networkEpoch timeoutMs :=
    unseen (env.resolveWithMetadata host networkEpoch timeoutMs)
  reportConnectionResult host ip networkEpoch success rttMs :=
    unseenTell (env.reportConnectionResult host ip networkEpoch success rttMs)
  acquire origin := unseen (env.acquire origin)
  release lease success := unseenTell (env.release lease success)
  engine type := (env.engine type).map fun engine req =>
    noted (fun answer => some (answerCode answer)) (engine req)
  observe success rttMs := unseenTell (env.observe success rttMs)
  isWeakNet := unseen env.isWeakNet
  snapshot := unseen env.snapshot
  joinFlight key := unseen (env.joinFlight key)
  waitFlight key deadlineMs := noted (fun answer => answer.map Prod.fst) (env.waitFlight key deadlineMs)
  publishFlight key result response dnsCacheHit :=
    unseenTell (env.publishFlight key result response dnsCacheHit)
  pick := unseen env.pick

/-- The outside of a client with the last answer noted. -/
def ClientEnv.watched (env : ClientEnv σ) : ClientEnv (σ × Option Result) where
  toEnv := env.toEnv.watched
  nested := unseen env.nested
  destroyed := unseen env.destroyed
  nextRequestId := unseen env.nextRequestId
  networkEpoch := unseen env.networkEpoch
  reportMetrics context response result := unseenTell (env.reportMetrics context response result)
  publishQualityChange snapshot := unseenTell (env.publishQualityChange snapshot)

/-- The world without the ghost. -/
def unwatch (w : World (σ × Option Result)) : World σ := ⟨w.out.1, w.breakers⟩

/-- `f` is `g` in the watched world, and what comes of the last answer. -/
def Watches (pre : Option Result → Prop) (f : Prog (σ × Option Result) α) (g : Prog σ α)
    (post : α → Option Result → Prop) : Prop :=
  Program.Tracks unwatch (fun w => pre w.out.2) f g fun a w => post a w.out.2

/-! ### Rules -/

section

variable {β : Type} {pre : Option Result → Prop} {env : Env σ} {post : α → Option Result → Prop}

theorem watches_bind {f : Prog (σ × Option Result) α} {g : Prog σ α}
    {f' : α → Prog (σ × Option Result) β} {g' : α → Prog σ β} {post' : β → Option Result → Prop}
    (hf : Watches pre f g post) (hf' : ∀ a, Watches (post a) (f' a) (g' a) post') :
    Watches pre (f >>= f') (g >>= g') post' :=
  Program.tracks_bind hf hf'

theorem watches_ite {c : Prop} [Decidable c] {f f' : Prog (σ × Option Result) α} {g g' : Prog σ α}
    (h : c → Watches pre f g post) (h' : ¬ c → Watches pre f' g' post) :
    Watches pre (if c then f else f') (if c then g else g') post :=
  Program.tracks_ite h h'

theorem Watches.conseq {f : Prog (σ × Option Result) α} {g : Prog σ α} {pre' : Option Result → Prop}
    {post' : α → Option Result → Prop} (h : Watches pre f g post) (hpre : ∀ last, pre' last → pre last)
    (hpost : ∀ a last, post a last → post' a last) : Watches pre' f g post' :=
  Program.Tracks.conseq h (fun w hw => hpre w.out.2 hw) fun a w hw => hpost a w.out.2 hw

theorem watches_ask {f : σ → α × σ} : Watches pre (ask (unseen f)) (ask f) fun _ => pre :=
  Program.tracks_call fun _ hw => ⟨rfl, rfl, hw⟩

theorem watches_tell {f : σ → σ} : Watches pre (tell (unseenTell f)) (tell f) fun _ => pre :=
  Program.tracks_call fun _ hw => ⟨rfl, rfl, hw⟩

theorem watches_getBreakers : Watches pre getBreakers (getBreakers : Prog σ Breakers) fun _ => pre :=
  Program.tracks_call fun _ hw => ⟨rfl, rfl, hw⟩

theorem watches_setBreakers (breakers : Breakers) :
    Watches pre (setBreakers breakers) (setBreakers breakers : Prog σ Unit) fun _ => pre :=
  Program.tracks_call fun _ hw => ⟨rfl, rfl, hw⟩

theorem watches_pure {a : α} (h : ∀ last, pre last → post a last) :
    Watches pre (pure a : Prog (σ × Option Result) α) (pure a) post :=
  Program.tracks_pure fun _ hw => h _ hw

theorem watches_emit {e : Event} :
    Watches pre (Program.emit e : Prog (σ × Option Result) Unit) (Program.emit e) fun _ => pre :=
  Program.tracks_emit fun _ hw => hw

theorem watches_now (site : ClockSite) :
    Watches pre (now env.watched site) (now env site) fun _ => pre :=
  watches_bind watches_ask fun _ => watches_bind watches_emit fun _ =>
    watches_pure fun _ h => h

theorem watches_noted {code : α → Option Result} {f : σ → α × σ} :
    Watches pre (ask (noted code f)) (ask f) fun a last =>
      ∃ before, pre before ∧ last = (code a).or before :=
  Program.tracks_call fun w hw => ⟨rfl, rfl, w.out.2, hw, rfl⟩

end

/-- The last answer was `errBufferTooSmall`. -/
def TooSmall (last : Option Result) : Prop := last = some .errBufferTooSmall

/-! ### The selector -/

namespace ProtocolSelector

variable (env : Env σ) (settings : Settings) {pre : Option Result → Prop}

theorem watches_isAvailable (type : EngineType) (req : Request) :
    Watches pre (isAvailable env.watched type req) (isAvailable env type req) fun _ => pre := by
  unfold isAvailable
  refine watches_bind watches_getBreakers fun states => ?_
  cases states.lookup (stateHostKey req, type) with
  | none => exact watches_pure fun _ h => h
  | some state =>
    refine watches_ite (fun _ => watches_pure fun _ h => h) fun _ => ?_
    refine watches_bind (watches_now _) fun t => ?_
    refine watches_ite (fun _ => ?_) fun _ => watches_pure fun _ h => h
    exact watches_bind (watches_setBreakers _) fun _ => watches_pure fun _ h => h

theorem watches_circuitAllows (plan : Plan) (type : EngineType) (req : Request) :
    Watches pre (circuitAllows env.watched plan type req) (circuitAllows env plan type req)
      fun _ => pre :=
  watches_ite (fun _ => watches_isAvailable env type req) fun _ => watches_pure fun _ h => h

theorem watches_recordFailure (type : EngineType) (req : Request) :
    Watches pre (recordFailure env.watched settings type req) (recordFailure env settings type req)
      fun _ => pre := by
  unfold recordFailure
  dsimp only
  refine watches_bind watches_getBreakers fun states => ?_
  refine watches_bind watches_ask fun choice => ?_
  refine watches_ite (fun _ => ?_) fun _ => watches_setBreakers _
  exact watches_bind (watches_now _) fun _ => watches_setBreakers _

theorem watches_recordSuccess (type : EngineType) (req : Request) :
    Watches pre (recordSuccess type req) (recordSuccess type req : Prog σ Unit) fun _ => pre := by
  unfold recordSuccess
  dsimp only
  refine watches_bind watches_getBreakers fun states => ?_
  cases states.lookup (stateHostKey req, type) with
  | none => exact watches_pure fun _ h => h
  | some state => exact watches_setBreakers _

/-- The response that is carried along says what the last answer was. -/
def Says (resp : Response) (last : Option Result) : Prop :=
  resp.errCode = .errBufferTooSmall ↔ TooSmall last

/-- The selector's result says what the last answer was, and its response too unless it is a success. -/
def Outcome.Says (outcome : Outcome) (last : Option Result) : Prop :=
  (outcome.code = .errBufferTooSmall ↔ TooSmall last) ∧
    (outcome.code ≠ .ok → outcome.resp.errCode = outcome.code)

theorem says_failed {lastError : Result} (herror : lastError ≠ .errBufferTooSmall) (degraded : Bool)
    (attempts : ℤ) {resp : Response} {last : Option Result} (h : Says resp last) :
    (failed lastError degraded attempts resp).Says last := by
  have htold : resp.errCode = .errBufferTooSmall ↔ TooSmall last := h
  refine ⟨?_, fun _ => rfl⟩
  rw [← htold]
  unfold failed
  dsimp only
  split_ifs with hok
  · rw [hok]
    simp [herror]
  · rfl

/-- An answer after which the selector gives up. -/
theorem says_failed_answer {answer : Result × Response} (hne : answer.1 ≠ .ok) (degraded : Bool)
    (attempts : ℤ) : (failed answer.1 degraded attempts answer.2).Says (some (answerCode answer)) := by
  refine ⟨?_, fun _ => rfl⟩
  unfold failed answerCode TooSmall
  rw [if_neg hne, Option.some.injEq]

/-- An answer after which it goes on. -/
theorem says_answer {answer : Result × Response} (hok : answer.1 ≠ .ok)
    (hne : answer.1 ≠ .errBufferTooSmall) : Says answer.2 (some (answerCode answer)) := by
  unfold Says TooSmall answerCode
  rw [if_neg hok, Option.some.injEq]
  split_ifs with hcode
  · rw [hcode]
    simp [hne]
  · rfl

/-- What an engine answers is the last answer. -/
theorem watches_engineRequest (type : EngineType) (engine : Request → σ → (Result × Response) × σ)
    (attempt : Request) :
    Watches pre
      (engineRequest type (fun req => noted (fun answer => some (answerCode answer)) (engine req))
        attempt)
      (engineRequest type engine attempt) fun answer last => last = some (answerCode answer) := by
  refine watches_bind watches_emit fun _ => watches_noted.conseq (fun _ h => h) ?_
  rintro answer last ⟨before, -, hlast⟩
  exact hlast

theorem not_retryable : isRetryable .errBufferTooSmall = false := by decide

theorem watches_tryChain (req : Request) (plan : Plan) (startMs : ℕ) (steps : List Step)
    {lastError : Result} (herror : lastError ≠ .errBufferTooSmall) (degraded : Bool) (attempts : ℤ)
    (resp : Response) :
    Watches (Says resp)
      (tryChain env.watched settings req plan startMs steps lastError degraded attempts resp)
      (tryChain env settings req plan startMs steps lastError degraded attempts resp)
      Outcome.Says := by
  -- the chain ends without an answer of its own, so what is said stays said
  have hfailed : ∀ {lastError : Result} degraded attempts resp, lastError ≠ .errBufferTooSmall →
      Watches (σ := σ) (Says resp) (pure (failed lastError degraded attempts resp))
        (pure (failed lastError degraded attempts resp)) Outcome.Says := by
    intro lastError degraded attempts resp herror
    exact watches_pure fun _ h => says_failed herror degraded attempts h
  -- the induction is on the steps that are left; the last answer is what the step before said
  induction steps generalizing lastError degraded attempts resp with
  | nil => exact hfailed _ _ _ herror
  | cons step rest ih =>
    unfold tryChain
    -- the watched engine answers as the plain one does, and its answer is kept
    have hwatched : env.watched.engine step.type = (env.engine step.type).map fun engine req =>
        noted (fun answer => some (answerCode answer)) (engine req) := rfl
    rw [hwatched]
    cases env.engine step.type with
    | none =>
      rw [Option.map_none]
      exact watches_ite (fun _ => ih (by decide) _ _ _) fun _ => hfailed _ _ _ (by decide)
    | some engine =>
      rw [Option.map_some]
      dsimp only
      refine watches_bind (watches_circuitAllows env plan step.type req) fun available => ?_
      refine watches_ite (fun _ => ?_) fun _ => watches_ite
        (fun _ => ih (by decide) _ _ _) fun _ => hfailed _ _ _ (by decide)
      refine watches_bind (watches_now _) fun t => ?_
      refine watches_ite (fun _ => hfailed _ _ _ (by decide)) fun _ => ?_
      refine watches_bind (watches_engineRequest step.type engine _) fun answer => ?_
      by_cases hok : answer.1 = .ok
      · rw [if_pos hok, if_pos hok]
        refine watches_bind (watches_recordSuccess step.type req) fun _ => watches_pure ?_
        -- the last answer is this one, and it was a success
        rintro last rfl
        refine ⟨?_, fun hne => absurd rfl hne⟩
        unfold answerCode TooSmall
        rw [if_pos hok]
        simp
      rw [if_neg hok, if_neg hok]
      -- the chain ends with the result of this answer
      have hgiveUp : ∀ degraded attempts, Watches (σ := σ) (fun last => last = some (answerCode answer))
          (pure (failed answer.1 degraded attempts answer.2))
          (pure (failed answer.1 degraded attempts answer.2)) Outcome.Says := by
        intro degraded attempts
        refine watches_pure ?_
        rintro last rfl
        exact says_failed_answer hok degraded attempts
      refine watches_ite (fun hretryable => ?_) fun _ => hgiveUp _ _
      -- such a result is not retried, so the chain never goes on behind it
      have hne : answer.1 ≠ .errBufferTooSmall := by
        intro hsmall
        rw [hsmall, not_retryable] at hretryable
        cases hretryable
      refine watches_bind (watches_recordFailure env settings step.type req) fun _ => ?_
      refine watches_ite (fun _ => ?_) fun _ => hgiveUp _ _
      refine (ih hne true _ answer.2).conseq ?_ fun _ _ h => h
      rintro last rfl
      exact says_answer hok hne

theorem watches_requestWithPolicy (req : Request) (policy : ProtocolPolicy) {resp : Response}
    (hresp : resp.errCode ≠ .errBufferTooSmall) :
    Watches (fun last => ¬ TooSmall last) (requestWithPolicy env.watched settings req policy resp)
      (requestWithPolicy env settings req policy resp) Outcome.Says := by
  unfold requestWithPolicy
  cases planOf policy with
  | none =>
    refine watches_pure fun last hlast => ⟨?_, fun _ => rfl⟩
    exact iff_of_false (by simp) hlast
  | some plan =>
    have hchain : ∀ startMs, Watches (fun last => ¬ TooSmall last)
        (tryChain env.watched settings req plan startMs plan.chain .errUnsupported false 0 resp)
        (tryChain env settings req plan startMs plan.chain .errUnsupported false 0 resp)
        Outcome.Says := by
      intro startMs
      have hne : Result.errUnsupported ≠ .errBufferTooSmall := by decide
      have htry := watches_tryChain env settings req plan startMs plan.chain
        hne false 0 resp
      exact htry.conseq (fun last hlast => iff_of_false hresp hlast) fun _ _ h => h
    exact watches_bind (watches_now _) hchain

end ProtocolSelector

/-! ### The transport -/

/-- The result says whether the last answer was `errBufferTooSmall`. -/
def ResultSays (result : Result) (last : Option Result) : Prop :=
  result = .errBufferTooSmall ↔ TooSmall last

/-- A result of the request's own. -/
theorem resultSays_of_ne {result : Result} (h : result ≠ .errBufferTooSmall) {last : Option Result}
    (hlast : ¬ TooSmall last) : ResultSays result last :=
  iff_of_false h hlast

namespace Client

variable (env : Env σ) (config : ClientConfig)

theorem watches_tryAddresses (context : RequestContext) (resolution : Dns.ResolveResult)
    (addresses : List Dns.IpResult) {result : Result} (hresult : result ≠ .errBufferTooSmall)
    {response : Response} (hresponse : response.errCode ≠ .errBufferTooSmall) :
    Watches (fun last => ¬ TooSmall last)
      (tryAddresses env.watched config context resolution addresses result response)
      (tryAddresses env config context resolution addresses result response)
      fun reply => ResultSays reply.1 := by
  induction addresses generalizing result response with
  | nil => exact watches_pure fun _ hlast => resultSays_of_ne hresult hlast
  | cons address rest ih =>
    unfold tryAddresses
    dsimp only
    refine watches_bind watches_ask fun lease => ?_
    refine watches_bind (ProtocolSelector.watches_requestWithPolicy env config.settings _ _ hresponse)
      fun outcome => ?_
    refine watches_bind watches_tell fun _ => ?_
    refine watches_bind watches_emit fun _ => ?_
    refine watches_bind watches_tell fun _ => ?_
    refine watches_bind watches_emit fun _ => ?_
    refine watches_bind watches_tell fun _ => ?_
    -- only a failed connection goes on to the next address
    by_cases hconnect : outcome.code = .errConnect
    · rw [if_pos hconnect, if_pos hconnect]
      have hne : outcome.code ≠ .errBufferTooSmall := by
        rw [hconnect]
        decide
      intro w htold
      -- the outcome says nothing of a full buffer, so neither does the response
      obtain ⟨hcode, hresp⟩ : outcome.Says w.out.2 := htold
      have hresponse' : outcome.resp.errCode ≠ .errBufferTooSmall := by
        rw [hresp (by rw [hconnect]; decide)]
        exact hne
      exact ih hne hresponse' w fun hlast => hne (hcode.mpr hlast)
    · rw [if_neg hconnect, if_neg hconnect]
      exact watches_pure fun last htold => htold.1

theorem watches_executeTransport (context : RequestContext) {response : Response}
    (hresponse : response.errCode ≠ .errBufferTooSmall) :
    Watches (fun last => ¬ TooSmall last) (executeTransport env.watched config context response)
      (executeTransport env config context response) fun reply => ResultSays reply.result := by
  unfold executeTransport
  dsimp only
  refine watches_bind watches_emit fun _ => ?_
  refine watches_bind watches_ask fun resolution => ?_
  refine watches_bind watches_emit fun _ => ?_
  refine watches_ite (fun _ => ?_) fun _ => ?_
  · refine watches_bind watches_emit fun _ => watches_bind watches_tell fun _ => ?_
    exact watches_pure fun _ hlast => resultSays_of_ne (by simp) hlast
  · refine watches_bind (watches_tryAddresses env config _ resolution _ (by decide) hresponse)
      fun reply => ?_
    exact watches_pure fun _ h => h

end Client

/-! ### The orchestrator -/

namespace Orchestrator

variable {env : Env σ}

/-- A stage that says of its result whether the last answer was `errBufferTooSmall`. -/
def StageWatches (chain : Terminal (σ × Option Result)) (chain' : Terminal σ) : Prop :=
  ∀ context response, response.errCode ≠ .errBufferTooSmall →
    Watches (fun last => ¬ TooSmall last) (chain context response) (chain' context response)
      fun reply => ResultSays reply.result

variable {chain : Terminal (σ × Option Result)} {chain' : Terminal σ}

theorem watches_retryLoop (hchain : StageWatches chain chain') (initialTimeout deadlineMs : ℤ)
    (left attempt : ℕ) (context : RequestContext) (response : Response) :
    Watches (fun last => ¬ TooSmall last)
      (retryLoop env.watched chain initialTimeout deadlineMs left attempt context response)
      (retryLoop env chain' initialTimeout deadlineMs left attempt context response)
      fun reply => ResultSays reply.result := by
  -- every attempt begins with a fresh response
  have hattempt := fun context : RequestContext => fun remainingMs : ℤ =>
    hchain (context.forAttempt remainingMs) {} (by decide)
  induction left generalizing attempt context response with
  | zero =>
    unfold retryLoop
    dsimp only
    refine watches_bind (watches_now _) fun t => ?_
    refine watches_ite (fun _ => watches_pure fun _ hlast => resultSays_of_ne (by simp) hlast)
      fun _ => ?_
    refine watches_bind (hattempt _ _) fun reply => ?_
    exact watches_ite (fun _ => watches_pure fun _ h => h) fun _ => watches_pure fun _ h => h
  | succ left ih =>
    unfold retryLoop
    dsimp only
    refine watches_bind (watches_now _) fun t => ?_
    refine watches_ite (fun _ => watches_pure fun _ hlast => resultSays_of_ne (by simp) hlast)
      fun _ => ?_
    refine watches_bind (hattempt _ _) fun reply => ?_
    refine watches_ite (fun _ => watches_pure fun _ h => h) fun hagain => ?_
    refine watches_bind (watches_now _) fun t => ?_
    refine watches_ite (fun _ => watches_pure fun _ h => h) fun _ => ?_
    refine watches_bind watches_emit fun _ => watches_bind watches_tell fun _ => ?_
    -- what is tried again was not too large
    have hne : reply.result ≠ .errBufferTooSmall := by
      intro hsmall
      rw [hsmall] at hagain
      exact absurd hagain (by decide)
    exact (ih _ _ _).conseq (fun last htold hlast => hne (htold.mpr hlast)) fun _ _ h => h

theorem stageWatches_retry (hchain : StageWatches chain chain') :
    StageWatches (retry env.watched chain) (retry env chain') := by
  intro context response _
  unfold retry
  dsimp only
  exact watches_bind (watches_now _) fun t => watches_retryLoop hchain _ _ _ _ _ _

theorem stageWatches_weakNet (hchain : StageWatches chain chain') :
    StageWatches (weakNet env.watched chain) (weakNet env chain') := by
  intro context response hresponse
  unfold weakNet
  dsimp only
  refine watches_bind watches_ask fun weakLink => ?_
  refine watches_ite (fun _ => ?_) fun _ => hchain _ _ hresponse
  exact watches_bind watches_ask fun snapshot => hchain _ _ hresponse

theorem stageWatches_coalesce (hchain : StageWatches chain chain') :
    StageWatches (coalesce env.watched chain) (coalesce env chain') := by
  intro context response hresponse
  unfold coalesce
  dsimp only
  refine watches_ite (fun _ => hchain _ _ hresponse) fun _ => ?_
  refine watches_bind watches_ask fun flight => ?_
  cases flight with
  | full => exact hchain _ _ hresponse
  | follower =>
    refine watches_bind (watches_now _) fun t => ?_
    refine watches_bind watches_noted fun answer => ?_
    cases answer with
    | none =>
      refine watches_pure ?_
      rintro last ⟨before, hbefore, rfl⟩
      exact resultSays_of_ne (by simp) hbefore
    | some answer =>
      refine watches_pure ?_
      rintro last ⟨before, -, rfl⟩
      exact (Option.some.injEq _ _).to_iff.symm
  | leader =>
    refine watches_bind (hchain _ _ hresponse) fun reply => ?_
    exact watches_bind watches_tell fun _ => watches_pure fun _ h => h

theorem stageWatches_execute (hchain : StageWatches chain chain') :
    StageWatches (execute env.watched chain) (execute env chain') := by
  intro context response hresponse
  exact stageWatches_coalesce (stageWatches_weakNet (stageWatches_retry hchain)) _ _ hresponse

end Orchestrator

/-! ### The client -/

namespace Client

/-- **The result of a request** is `errBufferTooSmall` if and only if the last answer was. -/
theorem watches_requestWithPolicy (env : ClientEnv σ) (config : ClientConfig) (req : Request)
    (policy : ProtocolPolicy) {resp : Response} (hresp : resp.errCode ≠ .errBufferTooSmall) :
    Watches (fun last => ¬ TooSmall last) (requestWithPolicy env.watched config req policy resp)
      (requestWithPolicy env config req policy resp) fun reply => ResultSays reply.result := by
  have htransport : Orchestrator.StageWatches (executeTransport env.toEnv.watched config)
      (executeTransport env.toEnv config) :=
    fun context _ hresponse => watches_executeTransport env.toEnv config context hresponse
  -- the total time is read from the clock and asks nobody
  have htotal : ∀ (pre : Option Result → Prop) startedMs response, Watches pre
      (totalTime env.toEnv.watched startedMs response) (totalTime env.toEnv startedMs response)
      fun _ => pre := by
    intro pre startedMs response
    unfold totalTime
    refine watches_ite (fun _ => ?_) fun _ => watches_pure fun _ h => h
    exact watches_bind (watches_now _) fun _ => watches_pure fun _ h => h
  unfold requestWithPolicy
  refine watches_bind watches_ask fun nested => ?_
  refine watches_ite (fun _ => watches_pure fun _ hlast => resultSays_of_ne (by simp) hlast)
    fun _ => ?_
  refine watches_bind (watches_now _) fun startedMs => ?_
  refine watches_bind watches_ask fun destroyed => ?_
  refine watches_ite (fun _ => watches_pure fun _ hlast => resultSays_of_ne (by simp) hlast)
    fun _ => ?_
  refine watches_bind watches_ask fun before => ?_
  refine watches_bind watches_ask fun requestId => ?_
  refine watches_bind watches_ask fun networkEpoch => ?_
  refine watches_bind (Orchestrator.stageWatches_execute htransport _ _ hresp) fun reply => ?_
  refine watches_bind (htotal _ _ _) fun totalMs => ?_
  refine watches_bind watches_ask fun after => ?_
  refine watches_bind watches_tell fun _ => ?_
  dsimp only
  refine watches_ite (fun _ => ?_) fun _ => watches_pure fun _ h => h
  exact watches_bind watches_tell fun _ => watches_pure fun _ h => h

end Client

end AsterNet
