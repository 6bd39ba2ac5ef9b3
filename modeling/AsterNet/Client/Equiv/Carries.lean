import AsterNet.Client.Client

/-!
# What a request says outside

Every call a request makes of the outside is about its own message and carries the network epoch it read
at its start.  `Env.Keeps` says that the outside keeps a condition `J` under such calls and all those
that carry neither; `keeps_requestWithPolicy` then says that a whole request keeps it, and that its
events are about its message and its epoch (`Event.Carries`).
-/

namespace AsterNet

open Effect Prog

/-- The event is about this message and this epoch. -/
def Event.Carries (base : Request) (epoch : ℕ) : Event → Prop
  | .resolve host networkEpoch _ => host = base.host ∧ networkEpoch = epoch
  | .engineRequest _ attempt => attempt.SameMessage base ∧ attempt.networkEpoch = epoch
  | .reportConnectionResult host _ networkEpoch _ _ => host = base.host ∧ networkEpoch = epoch
  | _ => True

/-- The outside keeps `J` under the calls of a request for this message under this epoch. -/
structure Env.Keeps {σ : Type} (env : Env σ) (J : σ → Prop) (base : Request) (epoch : ℕ) : Prop where
  monotonicMs : ∀ s, J s → J (env.monotonicMs s).2
  sleepFor : ∀ ms s, J s → J (env.sleepFor ms s)
  resolveWithMetadata : ∀ timeoutMs s, J s → J (env.resolveWithMetadata base.host epoch timeoutMs s).2
  reportConnectionResult : ∀ ip success rttMs s, J s →
    J (env.reportConnectionResult base.host ip epoch success rttMs s)
  acquire : ∀ s, J s →
    J (env.acquire { host := base.host, port := base.port, networkEpoch := epoch } s).2
  release : ∀ lease success s, J s → J (env.release lease success s)
  engine : ∀ type run, env.engine type = some run → ∀ attempt : Request, attempt.SameMessage base →
    attempt.networkEpoch = epoch → ∀ s, J s → J (run attempt s).2
  observe : ∀ success rttMs s, J s → J (env.observe success rttMs s)
  isWeakNet : ∀ s, J s → J (env.isWeakNet s).2
  snapshot : ∀ s, J s → J (env.snapshot s).2
  joinFlight : ∀ key s, J s → J (env.joinFlight key s).2
  waitFlight : ∀ key deadlineMs s, J s → J (env.waitFlight key deadlineMs s).2
  publishFlight : ∀ key result response hit s, J s → J (env.publishFlight key result response hit s)
  pick : ∀ s, J s → J (env.pick s).2

/-- Nothing is asked of the outside. -/
theorem Env.keeps_true {σ : Type} (env : Env σ) (base : Request) (epoch : ℕ) :
    env.Keeps (fun _ => True) base epoch := by
  constructor <;> intros <;> trivial

/-- A context for this message under this epoch. -/
structure RequestContext.Carries (context : RequestContext) (base : Request) (epoch : ℕ) : Prop where
  message : context.request.SameMessage base
  request_epoch : context.request.networkEpoch = epoch
  epoch : context.networkEpoch = epoch

section

variable {σ α : Type} {env : Env σ} {J : σ → Prop} {base : Request} {epoch : ℕ}

/-- A part of the pipeline that keeps `J` and is about this message and this epoch. -/
abbrev Speaks (J : σ → Prop) (base : Request) (epoch : ℕ) (f : Prog σ α) (Q : α → Prop) : Prop :=
  Program.Keeps (fun w : World σ => J w.out) (Event.Carries base epoch) f Q

theorem speaks_ask {f : σ → α × σ} (h : ∀ s, J s → J (f s).2) :
    Speaks J base epoch (ask f) fun _ => True :=
  Program.keeps_call fun w hw => ⟨h w.out hw, trivial⟩

theorem speaks_tell {f : σ → σ} (h : ∀ s, J s → J (f s)) :
    Speaks J base epoch (tell f) fun _ => True :=
  Program.keeps_call fun w hw => ⟨h w.out hw, trivial⟩

theorem speaks_getBreakers : Speaks J base epoch (getBreakers : Prog σ Breakers) fun _ => True :=
  Program.keeps_call fun _ hw => ⟨hw, trivial⟩

theorem speaks_setBreakers (breakers : Breakers) :
    Speaks J base epoch (setBreakers breakers : Prog σ Unit) fun _ => True :=
  Program.keeps_call fun _ hw => ⟨hw, trivial⟩

theorem speaks_now (henv : env.Keeps J base epoch) (site : ClockSite) :
    Speaks J base epoch (now env site) fun _ => True :=
  Program.keeps_bind (speaks_ask henv.monotonicMs) fun _ _ =>
    Program.keeps_bind (Program.keeps_emit trivial) fun _ _ => Program.keeps_pure trivial

/-! ### The selector -/

namespace ProtocolSelector

variable (settings : Settings)

theorem speaks_isAvailable (henv : env.Keeps J base epoch) (type : EngineType) (req : Request) :
    Speaks J base epoch (isAvailable env type req) fun _ => True := by
  unfold isAvailable
  refine Program.keeps_bind speaks_getBreakers fun states _ => ?_
  split
  · exact Program.keeps_pure trivial
  · refine Program.keeps_ite (fun _ => Program.keeps_pure trivial) fun _ => ?_
    refine Program.keeps_bind (speaks_now henv _) fun t _ => ?_
    refine Program.keeps_ite (fun _ => ?_) fun _ => Program.keeps_pure trivial
    exact Program.keeps_bind (speaks_setBreakers _) fun _ _ => Program.keeps_pure trivial

theorem speaks_circuitAllows (henv : env.Keeps J base epoch) (plan : Plan) (type : EngineType)
    (req : Request) : Speaks J base epoch (circuitAllows env plan type req) fun _ => True :=
  Program.keeps_ite (fun _ => speaks_isAvailable henv type req) fun _ => Program.keeps_pure trivial

theorem speaks_recordFailure (henv : env.Keeps J base epoch) (type : EngineType) (req : Request) :
    Speaks J base epoch (recordFailure env settings type req) fun _ => True := by
  unfold recordFailure
  dsimp only
  refine Program.keeps_bind speaks_getBreakers fun states _ => ?_
  refine Program.keeps_bind (speaks_ask henv.pick) fun choice _ => ?_
  refine Program.keeps_ite (fun _ => ?_) fun _ => speaks_setBreakers _
  exact Program.keeps_bind (speaks_now henv _) fun _ _ => speaks_setBreakers _

theorem speaks_recordSuccess (type : EngineType) (req : Request) :
    Speaks J base epoch (recordSuccess type req : Prog σ Unit) fun _ => True := by
  unfold recordSuccess
  dsimp only
  refine Program.keeps_bind speaks_getBreakers fun states _ => ?_
  split
  · exact Program.keeps_pure trivial
  · exact speaks_setBreakers _

theorem speaks_tryChain (henv : env.Keeps J base epoch) {req : Request} (hreq : req.SameMessage base)
    (hepoch : req.networkEpoch = epoch) (plan : Plan) (startMs : ℕ) (steps : List Step)
    (lastError : Result) (degraded : Bool) (attempts : ℤ) (resp : Response) :
    Speaks J base epoch (tryChain env settings req plan startMs steps lastError degraded attempts resp)
      fun _ => True := by
  induction steps generalizing lastError degraded attempts resp with
  | nil => exact Program.keeps_pure trivial
  | cons step rest ih =>
    unfold tryChain
    rcases hengine : env.engine step.type with - | engine
    · exact Program.keeps_ite (fun _ => ih _ _ _ _) fun _ => Program.keeps_pure trivial
    · dsimp only
      refine Program.keeps_bind (speaks_circuitAllows henv plan step.type req) fun available _ => ?_
      refine Program.keeps_ite (fun _ => ?_) fun _ => Program.keeps_ite (fun _ => ih _ _ _ _)
        fun _ => Program.keeps_pure trivial
      refine Program.keeps_bind (speaks_now henv _) fun t _ => ?_
      refine Program.keeps_ite (fun _ => Program.keeps_pure trivial) fun _ => ?_
      -- the engine is asked for the message, with less time
      have hrequest : ∀ timeoutMs, Speaks J base epoch
          (engineRequest step.type engine { req with timeoutMs }) fun _ => True := by
        intro timeoutMs
        have hattempt : ({ req with timeoutMs } : Request).SameMessage base := { hreq with }
        refine Program.keeps_bind (Program.keeps_emit ⟨hattempt, hepoch⟩) fun _ _ => ?_
        exact speaks_ask (henv.engine step.type engine hengine _ hattempt hepoch)
      refine Program.keeps_bind (hrequest _) fun reply _ => ?_
      refine Program.keeps_ite (fun _ => ?_) fun _ => Program.keeps_ite (fun _ => ?_)
        fun _ => Program.keeps_pure trivial
      · exact Program.keeps_bind (speaks_recordSuccess step.type req)
          fun _ _ => Program.keeps_pure trivial
      · refine Program.keeps_bind (speaks_recordFailure settings henv step.type req) fun _ _ => ?_
        exact Program.keeps_ite (fun _ => ih _ _ _ _) fun _ => Program.keeps_pure trivial

theorem speaks_requestWithPolicy (henv : env.Keeps J base epoch) {req : Request}
    (hreq : req.SameMessage base) (hepoch : req.networkEpoch = epoch) (policy : ProtocolPolicy)
    (resp : Response) :
    Speaks J base epoch (requestWithPolicy env settings req policy resp) fun _ => True := by
  unfold requestWithPolicy
  cases planOf policy with
  | none => exact Program.keeps_pure trivial
  | some plan =>
    refine Program.keeps_bind (speaks_now henv _) fun c _ => ?_
    exact speaks_tryChain settings henv hreq hepoch plan c _ _ _ _ _

end ProtocolSelector

/-! ### The transport -/

namespace Client

variable (config : ClientConfig)

theorem speaks_tryAddresses (henv : env.Keeps J base epoch) {context : RequestContext}
    (hcontext : context.Carries base epoch) (resolution : Dns.ResolveResult)
    (addresses : List Dns.IpResult) (result : Result) (response : Response) :
    Speaks J base epoch (tryAddresses env config context resolution addresses result response)
      fun _ => True := by
  induction addresses generalizing result response with
  | nil => exact Program.keeps_pure trivial
  | cons address rest ih =>
    -- an attempt differs from the request in its address and its times
    have hattempt : ({ context.request with
        connectHost := address.ip, dnsMs := resolution.elapsedMs } : Request).SameMessage base :=
      { hcontext.message with }
    -- the pool, the resolver and the prober are told the same host and epoch
    have horigin : ({ host := context.request.host, port := context.request.port
                      networkEpoch := context.networkEpoch } : Origin) =
        { host := base.host, port := base.port, networkEpoch := epoch } := by
      rw [hcontext.epoch, hcontext.message.host, hcontext.message.port]
    have hreport : ∀ success rttMs, Speaks J base epoch (tell (env.reportConnectionResult
        context.request.host address.ip context.networkEpoch success rttMs)) fun _ => True := by
      intro success rttMs
      rw [hcontext.epoch, hcontext.message.host]
      exact speaks_tell (henv.reportConnectionResult _ _ _)
    unfold tryAddresses
    dsimp only
    rw [horigin]
    refine Program.keeps_bind (speaks_ask henv.acquire) fun lease _ => ?_
    refine Program.keeps_bind (ProtocolSelector.speaks_requestWithPolicy config.settings henv hattempt
      hcontext.request_epoch _ _) fun outcome _ => ?_
    refine Program.keeps_bind (speaks_tell (henv.release _ _)) fun _ _ => ?_
    refine Program.keeps_bind (Program.keeps_emit ⟨hcontext.message.host, hcontext.epoch⟩)
      fun _ _ => ?_
    refine Program.keeps_bind (hreport _ _) fun _ _ => ?_
    refine Program.keeps_bind (Program.keeps_emit trivial) fun _ _ => ?_
    refine Program.keeps_bind (speaks_tell (henv.observe _ _)) fun _ _ => ?_
    exact Program.keeps_ite (fun _ => ih _ _) fun _ => Program.keeps_pure trivial

theorem speaks_executeTransport (henv : env.Keeps J base epoch) {context : RequestContext}
    (hcontext : context.Carries base epoch) (response : Response) :
    Speaks J base epoch (executeTransport env config context response)
      fun reply => reply.context.Carries base epoch := by
  have hresolve : Speaks J base epoch (ask (env.resolveWithMetadata context.request.host
      context.networkEpoch context.request.timeoutMs)) fun _ => True := by
    rw [hcontext.epoch, hcontext.message.host]
    exact speaks_ask (henv.resolveWithMetadata _)
  unfold executeTransport
  dsimp only
  refine Program.keeps_bind (Program.keeps_emit ⟨hcontext.message.host, hcontext.epoch⟩) fun _ _ => ?_
  refine Program.keeps_bind hresolve fun resolution _ => ?_
  refine Program.keeps_bind (Program.keeps_emit trivial) fun _ _ => ?_
  -- whether the lookup hit the cache is all that changes in the context
  have hcontext' : ({ context with
      dnsCacheHit := if context.attempts ≤ 1 then resolution.cacheHit
        else context.dnsCacheHit } : RequestContext).Carries base epoch := { hcontext with }
  refine Program.keeps_ite (fun _ => ?_) fun _ => ?_
  · refine Program.keeps_bind (Program.keeps_emit trivial) fun _ _ => ?_
    exact Program.keeps_bind (speaks_tell (henv.observe _ _)) fun _ _ => Program.keeps_pure hcontext'
  · refine Program.keeps_bind (speaks_tryAddresses config henv hcontext' _ _ _ _) fun _ _ => ?_
    exact Program.keeps_pure hcontext'

end Client

/-! ### The orchestrator -/

namespace Orchestrator

/-- A stage speaks for every context of the request, and hands one back. -/
def StageSpeaks (J : σ → Prop) (base : Request) (epoch : ℕ) (chain : Terminal σ) : Prop :=
  ∀ context response, context.Carries base epoch →
    Speaks J base epoch (chain context response) fun reply => reply.context.Carries base epoch

variable {chain : Terminal σ}

theorem speaks_retryLoop (henv : env.Keeps J base epoch) (hchain : StageSpeaks J base epoch chain)
    (initialTimeout deadlineMs : ℤ) (left attempt : ℕ) {context : RequestContext}
    (hcontext : context.Carries base epoch) (response : Response) :
    Speaks J base epoch (retryLoop env chain initialTimeout deadlineMs left attempt context response)
      fun reply => reply.context.Carries base epoch := by
  -- the loop changes nothing of the message but its timeout
  have hattempt : ∀ {context : RequestContext} timeoutMs, context.Carries base epoch →
      (context.forAttempt timeoutMs).Carries base epoch := fun timeoutMs hcontext =>
    ⟨{ hcontext.message with }, hcontext.request_epoch, hcontext.epoch⟩
  have hafter : ∀ {reply : Reply}, reply.context.Carries base epoch →
      (reply.afterRetry initialTimeout).context.Carries base epoch := fun hreply =>
    ⟨{ hreply.message with }, hreply.request_epoch, hreply.epoch⟩
  -- the induction is on the attempts that are left
  induction left generalizing attempt context response with
  | zero =>
    unfold retryLoop
    dsimp only
    refine Program.keeps_bind (speaks_now henv _) fun t _ => ?_
    refine Program.keeps_ite (fun _ => Program.keeps_pure hcontext) fun _ => ?_
    refine Program.keeps_bind (hchain _ _ (hattempt _ hcontext)) fun reply hreply => ?_
    exact Program.keeps_ite (fun _ => Program.keeps_pure (hafter hreply))
      fun _ => Program.keeps_pure (hafter hreply)
  | succ left ih =>
    unfold retryLoop
    dsimp only
    refine Program.keeps_bind (speaks_now henv _) fun t _ => ?_
    refine Program.keeps_ite (fun _ => Program.keeps_pure hcontext) fun _ => ?_
    refine Program.keeps_bind (hchain _ _ (hattempt _ hcontext)) fun reply hreply => ?_
    refine Program.keeps_ite (fun _ => Program.keeps_pure (hafter hreply)) fun _ => ?_
    refine Program.keeps_bind (speaks_now henv _) fun t _ => ?_
    refine Program.keeps_ite (fun _ => Program.keeps_pure (hafter hreply)) fun _ => ?_
    refine Program.keeps_bind (Program.keeps_emit trivial) fun _ _ => ?_
    refine Program.keeps_bind (speaks_tell (henv.sleepFor _)) fun _ _ => ?_
    exact ih _ hreply _

theorem stageSpeaks_retry (henv : env.Keeps J base epoch) (hchain : StageSpeaks J base epoch chain) :
    StageSpeaks J base epoch (retry env chain) := by
  intro context response hcontext
  unfold retry
  dsimp only
  refine Program.keeps_bind (speaks_now henv _) fun t _ => ?_
  exact speaks_retryLoop henv hchain _ _ _ _ hcontext _

theorem stageSpeaks_weakNet (henv : env.Keeps J base epoch) (hchain : StageSpeaks J base epoch chain) :
    StageSpeaks J base epoch (weakNet env chain) := by
  intro context response hcontext
  unfold weakNet
  dsimp only
  refine Program.keeps_bind (speaks_ask henv.isWeakNet) fun weakLink _ => ?_
  refine Program.keeps_ite (fun _ => ?_) fun _ => hchain _ _ { hcontext with }
  refine Program.keeps_bind (speaks_ask henv.snapshot) fun snapshot _ => ?_
  exact hchain _ _ { hcontext with }

theorem stageSpeaks_coalesce (henv : env.Keeps J base epoch) (hchain : StageSpeaks J base epoch chain) :
    StageSpeaks J base epoch (coalesce env chain) := by
  intro context response hcontext
  unfold coalesce
  dsimp only
  refine Program.keeps_ite (fun _ => hchain _ _ hcontext) fun _ => ?_
  refine Program.keeps_bind (speaks_ask (henv.joinFlight _)) fun flight _ => ?_
  cases flight with
  | full => exact hchain _ _ hcontext
  | follower =>
    refine Program.keeps_bind (speaks_now henv _) fun t _ => ?_
    refine Program.keeps_bind (speaks_ask (henv.waitFlight _ _)) fun answer _ => ?_
    cases answer with
    | none => exact Program.keeps_pure { hcontext with }
    | some answer => exact Program.keeps_pure { hcontext with }
  | leader =>
    refine Program.keeps_bind (hchain _ _ hcontext) fun reply hreply => ?_
    exact Program.keeps_bind (speaks_tell (henv.publishFlight _ _ _ _)) fun _ _ =>
      Program.keeps_pure hreply

theorem stageSpeaks_execute (henv : env.Keeps J base epoch) (hchain : StageSpeaks J base epoch chain) :
    StageSpeaks J base epoch (execute env chain) := by
  intro context response hcontext
  have hnormal : (normalizeRetrySafety context).Carries base epoch :=
    ⟨{ hcontext.message with }, hcontext.request_epoch, hcontext.epoch⟩
  exact stageSpeaks_coalesce henv (stageSpeaks_weakNet henv (stageSpeaks_retry henv hchain)) _ _ hnormal

end Orchestrator

end

/-! ### The client -/

/-- The outside of a client keeps `J₀` until a request reads the epoch, and `J epoch` from then on. -/
structure ClientEnv.Keeps {σ : Type} (env : ClientEnv σ) (J₀ : σ → Prop) (J : ℕ → σ → Prop)
    (base : Request) : Prop where
  pipeline : ∀ epoch, env.toEnv.Keeps (J epoch) base epoch
  nested : ∀ s, J₀ s → J₀ (env.nested s).2
  monotonicMs : ∀ s, J₀ s → J₀ (env.monotonicMs s).2
  destroyed : ∀ s, J₀ s → J₀ (env.destroyed s).2
  snapshot : ∀ s, J₀ s → J₀ (env.snapshot s).2
  nextRequestId : ∀ s, J₀ s → J₀ (env.nextRequestId s).2
  networkEpoch : ∀ s, J₀ s → J (env.networkEpoch s).1 (env.networkEpoch s).2
  reportMetrics : ∀ context response result epoch s, J epoch s →
    J epoch (env.reportMetrics context response result s)
  publishQualityChange : ∀ snapshot epoch s, J epoch s → J epoch (env.publishQualityChange snapshot s)

theorem ClientEnv.keeps_true {σ : Type} (env : ClientEnv σ) (base : Request) :
    env.Keeps (fun _ => True) (fun _ _ => True) base where
  pipeline := env.toEnv.keeps_true base
  nested := fun _ _ => trivial
  monotonicMs := fun _ _ => trivial
  destroyed := fun _ _ => trivial
  snapshot := fun _ _ => trivial
  nextRequestId := fun _ _ => trivial
  networkEpoch := fun _ _ => trivial
  reportMetrics := fun _ _ _ _ _ _ => trivial
  publishQualityChange := fun _ _ _ _ => trivial

namespace Client

variable {σ : Type}

/-- **All that a request says outside** is about its message and the epoch it read at its start. -/
theorem keeps_requestWithPolicy {env : ClientEnv σ} {J₀ : σ → Prop} {J : ℕ → σ → Prop} {req : Request}
    (henv : env.Keeps J₀ J req) (config : ClientConfig) (policy : ProtocolPolicy) (resp : Response) :
    Program.KeepsFrom (fun w : World σ => J₀ w.out) (fun epoch w => J epoch w.out)
      (fun epoch => Event.Carries req epoch) (requestWithPolicy env config req policy resp) := by
  -- until the epoch is read, nothing is said that carries one
  have hask : ∀ {α : Type} {f : σ → α × σ}, (∀ s, J₀ s → J₀ (f s).2) →
      Program.Keeps (fun w : World σ => J₀ w.out) (fun e => ∀ epoch, Event.Carries req epoch e) (ask f)
        fun _ => True := fun h => Program.keeps_call fun w hw => ⟨h w.out hw, trivial⟩
  have hstart : Program.Keeps (fun w : World σ => J₀ w.out) (fun e => ∀ epoch, Event.Carries req epoch e)
      (now env.toEnv .requestStart) fun _ => True :=
    Program.keeps_bind (hask henv.monotonicMs) fun _ _ =>
      Program.keeps_bind (Program.keeps_emit fun _ => trivial) fun _ _ => Program.keeps_pure trivial
  unfold requestWithPolicy
  dsimp only
  refine Program.keepsFrom_bind (hask henv.nested) fun nested => ?_
  refine Program.keepsFrom_ite Program.keepsFrom_pure ?_
  refine Program.keepsFrom_bind hstart fun startedMs => ?_
  refine Program.keepsFrom_bind (hask henv.destroyed) fun destroyed => ?_
  refine Program.keepsFrom_ite Program.keepsFrom_pure ?_
  refine Program.keepsFrom_bind (hask henv.snapshot) fun before => ?_
  refine Program.keepsFrom_bind (hask henv.nextRequestId) fun requestId => ?_
  -- here the epoch is read
  refine Program.keepsFrom_call (fun w hw => henv.networkEpoch w.out hw) fun epoch => ?_
  have hepoch := henv.pipeline epoch
  have hcontext : (initialContext config req policy startedMs requestId epoch).Carries req epoch :=
    ⟨⟨rfl, rfl, rfl, rfl, rfl, rfl⟩, rfl, rfl⟩
  have htransport : Orchestrator.StageSpeaks (J epoch) req epoch (executeTransport env.toEnv config) :=
    fun context response hcontext => speaks_executeTransport config hepoch hcontext response
  have htotal : ∀ response, Speaks (J epoch) req epoch (totalTime env.toEnv startedMs response)
      fun _ => True := by
    intro response
    unfold totalTime
    refine Program.keeps_ite (fun _ => ?_) fun _ => Program.keeps_pure trivial
    exact Program.keeps_bind (speaks_now hepoch _) fun _ _ => Program.keeps_pure trivial
  refine Program.keeps_bind (Orchestrator.stageSpeaks_execute hepoch htransport _ _ hcontext)
    fun reply _ => ?_
  refine Program.keeps_bind (htotal _) fun totalMs _ => ?_
  refine Program.keeps_bind (speaks_ask hepoch.snapshot) fun after _ => ?_
  refine Program.keeps_bind (speaks_tell (henv.reportMetrics _ _ _ epoch)) fun _ _ => ?_
  refine Program.keeps_ite (fun _ => ?_) fun _ => Program.keeps_pure trivial
  exact Program.keeps_bind (speaks_tell (henv.publishQualityChange _ epoch)) fun _ _ =>
    Program.keeps_pure trivial

end Client

end AsterNet
