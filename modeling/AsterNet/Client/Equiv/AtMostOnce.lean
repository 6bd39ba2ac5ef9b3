import AsterNet.Client.Client

/-!
# How often a request reaches an engine

`engineCalls_le`: one call of `request_with_policy` asks an engine at most once, unless the request
is replay-safe; then at most twelve times, for two attempts, two addresses and three protocols.

`Spends f n post` bounds the engine calls of a part of the pipeline and says what it returns.  The
bound of each loop follows from the bound of its body and from the guard that lets it go on.
-/

namespace AsterNet

open Effect Prog

/-- The number of engine requests among the events. -/
def engineCalls (events : List Event) : ℕ :=
  events.countP fun
    | .engineRequest .. => true
    | _ => false

/-- A request that may reach an engine more than once: the caller said so, it is a `GET`, `HEAD` or
`OPTIONS` without a body, or it is idempotent with an `Idempotency-Key` that is not blank. -/
def ReplaySafe (req : Request) : Prop :=
  req.retrySafe = true ∨
  (req.body = [] ∧ (req.method = ByteString.ascii "GET" ∨ req.method = ByteString.ascii "HEAD" ∨
    req.method = ByteString.ascii "OPTIONS")) ∨
  (req.idempotent = true ∧ ∃ header ∈ req.headers,
    ByteString.lower header.name = ByteString.ascii "idempotency-key" ∧
      ∃ c ∈ header.value, ByteString.isSpace c = false)

instance : DecidablePred ReplaySafe := fun _ => inferInstanceAs (Decidable (_ ∨ _ ∨ _))

/-- The monitor that counts engine requests. -/
def callMonitor : Monitor Event ℕ where
  next k e := match e with
    | .engineRequest .. => k + 1
    | _ => k
  ok _ _ := True

theorem run_callMonitor (k : ℕ) (events : List Event) :
    callMonitor.run k events = k + engineCalls events := by
  induction events generalizing k with
  | nil => rfl
  | cons e events ih =>
    rw [Monitor.run_cons, ih]
    cases e with
    | engineRequest type request =>
      simp [callMonitor, engineCalls]
      omega
    | _ => simp [callMonitor, engineCalls]

/-- `f` asks an engine at most `n` times and returns a value satisfying `post`. -/
def Spends {σ α : Type} (f : Prog σ α) (n : ℕ) (post : α → Prop) : Prop :=
  ∀ a, callMonitor.Triple (· ≤ a) f fun v k => post v ∧ k ≤ a + n

namespace Spends

variable {σ α β : Type} {f : Prog σ α} {g : α → Prog σ β} {n m : ℕ} {mid : α → Prop}
  {post : β → Prop}

theorem engineCalls_le {post : α → Prop} (h : Spends f n post) (w : World σ) :
    engineCalls (f w).events ≤ n ∧ post (f w).val := by
  obtain ⟨-, hpost, hle⟩ := h 0 w 0 le_rfl
  rw [run_callMonitor] at hle
  exact ⟨by omega, hpost⟩

theorem pure {v : α} {post : α → Prop} (h : post v) : Spends (Pure.pure v : Prog σ α) n post :=
  fun _ => Monitor.triple_pure fun _ hk => ⟨h, Nat.le_add_right_of_le hk⟩

theorem bind (hf : Spends f n mid) (hg : ∀ v, mid v → Spends (g v) m post) :
    Spends (f >>= g) (n + m) post := by
  intro a
  refine Monitor.triple_bind (hf a) fun v => Monitor.triple_of_and fun hv => ?_
  rw [← Nat.add_assoc]
  exact hg v hv (a + n)

/-- A part that asks no engine in front of another. -/
theorem free (hf : Spends f 0 mid) (hg : ∀ v, mid v → Spends (g v) m post) :
    Spends (f >>= g) m post := by
  rw [← Nat.zero_add m]
  exact hf.bind hg

/-- A part that asks no engine behind another. -/
theorem last (hf : Spends f n mid) (hg : ∀ v, mid v → Spends (g v) 0 post) :
    Spends (f >>= g) n post :=
  hf.bind hg

theorem le {post : α → Prop} (h : Spends f n post) (hn : n ≤ m) : Spends f m post :=
  fun a => (h a).conseq (fun _ hk => hk) fun _ _ hk => ⟨hk.1, by omega⟩

theorem mono {post post' : α → Prop} (h : Spends f n post) (hn : n ≤ m)
    (hpost : ∀ v, post v → post' v) : Spends f m post' :=
  fun a => (h a).conseq (fun _ hk => hk) fun v k hk => ⟨hpost v hk.1, by omega⟩

theorem ite {c : Prop} [Decidable c] {f g : Prog σ α} {post : α → Prop}
    (hf : c → Spends f n post) (hg : ¬ c → Spends g n post) :
    Spends (if c then f else g) n post := by
  split_ifs with h
  · exact hf h
  · exact hg h

theorem ask (f : σ → α × σ) : Spends (Prog.ask f) 0 fun _ => True :=
  fun _ => triple_ask fun _ => trivial

theorem tell (f : σ → σ) : Spends (Prog.tell f) 0 fun _ => True :=
  fun _ => triple_tell.conseq (fun _ hk => hk) fun _ _ hk => ⟨trivial, hk⟩

theorem getBreakers : Spends (Prog.getBreakers : Prog σ Breakers) 0 fun _ => True :=
  fun _ => triple_getBreakers.conseq (fun _ hk => hk) fun _ _ hk => ⟨trivial, hk⟩

theorem setBreakers (breakers : Breakers) :
    Spends (Prog.setBreakers breakers : Prog σ Unit) 0 fun _ => True :=
  fun _ => (triple_setBreakers breakers).conseq (fun _ hk => hk) fun _ _ hk => ⟨trivial, hk⟩

/-- Any event but an engine request is free. -/
theorem emit {e : Event} (he : ∀ k, callMonitor.next k e = k) :
    Spends (Program.emit e : Prog σ Unit) 0 fun _ => True :=
  fun a => Monitor.triple_emit fun k hk => ⟨trivial, trivial, by rw [he]; exact hk⟩

theorem now (env : Env σ) (site : ClockSite) : Spends (Prog.now env site) 0 fun _ => True :=
  fun _ => triple_now env site fun _ _ hk => ⟨trivial, trivial, hk⟩

end Spends

section

variable {σ : Type} (env : Env σ) (settings : ProtocolSelector.Settings)

/-! ### The selector -/

namespace ProtocolSelector

theorem spends_isAvailable (type : EngineType) (req : Request) :
    Spends (isAvailable env type req) 0 fun _ => True := by
  unfold isAvailable
  refine Spends.getBreakers.free fun states _ => ?_
  split
  · exact .pure trivial
  · refine .ite (fun _ => .pure trivial) fun _ => ?_
    refine (Spends.now env _).free fun t _ => .ite (fun _ => ?_) fun _ => .pure trivial
    exact (Spends.setBreakers _).free fun _ _ => .pure trivial

theorem spends_circuitAllows (plan : Plan) (type : EngineType) (req : Request) :
    Spends (circuitAllows env plan type req) 0 fun _ => True :=
  .ite (fun _ => spends_isAvailable env type req) fun _ => .pure trivial

theorem spends_recordFailure (type : EngineType) (req : Request) :
    Spends (recordFailure env settings type req) 0 fun _ => True := by
  unfold recordFailure
  dsimp only
  refine Spends.getBreakers.free fun states _ => (Spends.ask _).free fun choice _ => ?_
  refine .ite (fun _ => ?_) fun _ => .setBreakers _
  exact (Spends.now env _).free fun t _ => .setBreakers _

theorem spends_recordSuccess (type : EngineType) (req : Request) :
    Spends (recordSuccess type req : Prog σ Unit) 0 fun _ => True := by
  unfold recordSuccess
  dsimp only
  refine Spends.getBreakers.free fun states _ => ?_
  split
  · exact .pure trivial
  · exact .setBreakers _

theorem spends_engineRequest (type : EngineType) (engine : Request → σ → (Result × Response) × σ)
    (attempt : Request) : Spends (engineRequest type engine attempt) 1 fun _ => True := by
  have hemit : Spends (Program.emit (.engineRequest type attempt) : Prog σ Unit) 1 fun _ => True :=
    fun _ => Monitor.triple_emit fun _ hk => ⟨trivial, trivial, Nat.succ_le_succ hk⟩
  exact hemit.bind fun _ _ => .ask _

/-- The chain: one call a step if a failed step may be followed by others, else one in all. -/
theorem spends_tryChain (req : Request) (plan : Plan) (startMs : ℕ) (steps : List Step)
    (lastError : Result) (degraded : Bool) (attempts : ℤ) (resp : Response) :
    Spends (tryChain env settings req plan startMs steps lastError degraded attempts resp)
      (if req.retrySafe then steps.length else 1) fun _ => True := by
  induction steps generalizing lastError degraded attempts resp with
  | nil => exact .pure trivial
  | cons step rest ih =>
    -- a step that is passed over costs nothing
    have hskip : ∀ lastError degraded attempts resp,
        Spends (tryChain env settings req plan startMs rest lastError degraded attempts resp)
          (if req.retrySafe then (step :: rest).length else 1) fun _ => True :=
      fun lastError degraded attempts resp => (ih lastError degraded attempts resp).mono
        (by split_ifs <;> simp) fun _ h => h
    -- what may follow a failed engine request
    have hnext : ∀ lastError degraded attempts resp, plan.allowFallback && req.retrySafe →
        Spends (tryChain env settings req plan startMs rest lastError degraded attempts resp)
          ((if req.retrySafe then (step :: rest).length else 1) - 1) fun _ => True := by
      intro lastError degraded attempts resp hgo
      have hsafe : req.retrySafe = true := (Bool.and_eq_true_iff.mp hgo).2
      simpa [hsafe] using ih lastError degraded attempts resp
    have hone : 1 + ((if req.retrySafe then (step :: rest).length else 1) - 1) =
        if req.retrySafe then (step :: rest).length else 1 := by
      split_ifs <;> simp [Nat.add_comm]
    unfold tryChain
    -- an engine that is not built, a circuit that is open, no time left, and at last the request
    cases env.engine step.type with
    | none => exact .ite (fun _ => hskip _ _ _ _) fun _ => .pure trivial
    | some engine =>
      dsimp only
      refine (spends_circuitAllows env plan step.type req).free fun available _ =>
        .ite (fun _ => ?_) fun _ => ?_
      · refine (Spends.now env _).free fun t _ => .ite (fun _ => .pure trivial) fun _ => ?_
        rw [← hone]
        refine (spends_engineRequest step.type engine _).bind fun ret _ => ?_
        refine .ite (fun _ => ?_) fun _ => .ite (fun _ => ?_) fun _ => .pure trivial
        · exact (spends_recordSuccess step.type req).free fun _ _ => .pure trivial
        · refine (spends_recordFailure env settings step.type req).free fun _ _ => ?_
          exact .ite (hnext _ _ _ _) fun _ => .pure trivial
      · exact .ite (fun _ => hskip _ _ _ _) fun _ => .pure trivial

/-- No chain is longer than three protocols. -/
theorem length_chain_le {policy : ProtocolPolicy} {plan : Plan} (h : planOf policy = some plan) :
    plan.chain.length ≤ 3 := by
  cases policy <;> simp [planOf] at h <;> simp [← h]

theorem spends_requestWithPolicy (req : Request) (policy : ProtocolPolicy) (resp : Response) :
    Spends (requestWithPolicy env settings req policy resp) (if req.retrySafe then 3 else 1)
      fun _ => True := by
  unfold requestWithPolicy
  cases hplan : planOf policy with
  | none => exact .pure trivial
  | some plan =>
    refine (Spends.now env _).free fun startMs _ => ?_
    refine (spends_tryChain env settings req plan startMs _ _ _ _ _).mono ?_ fun _ h => h
    split_ifs
    · exact length_chain_le hplan
    · exact le_rfl

end ProtocolSelector

/-! ### The address loop -/

namespace Client

variable (config : ClientConfig)

theorem spends_tryAddresses (context : RequestContext) (resolution : Dns.ResolveResult)
    (addresses : List Dns.IpResult) (result : Result) (response : Response) :
    Spends (tryAddresses env config context resolution addresses result response)
      (addresses.length * if context.request.retrySafe then 3 else 1) fun _ => True := by
  induction addresses generalizing result response with
  | nil => exact .pure trivial
  | cons address rest ih =>
    unfold tryAddresses
    dsimp only
    rw [List.length_cons, Nat.succ_mul, Nat.add_comm]
    refine (Spends.ask _).free fun lease _ => ?_
    refine (ProtocolSelector.spends_requestWithPolicy env config.settings _ _ _).bind
      fun outcome _ => ?_
    refine (Spends.tell _).free fun _ _ => ?_
    refine (Spends.emit fun _ => rfl).free fun _ _ => (Spends.tell _).free fun _ _ => ?_
    refine (Spends.emit fun _ => rfl).free fun _ _ => (Spends.tell _).free fun _ _ => ?_
    exact .ite (fun _ => ih _ _) fun _ => .pure trivial

/-- The engine calls one attempt of the retry loop is worth. -/
def attemptCalls (retrySafe : Bool) : ℕ := if retrySafe then 6 else 1

/-- The transport keeps the replay safety it was handed. -/
theorem spends_executeTransport (context : RequestContext) (response : Response) :
    Spends (executeTransport env config context response) (attemptCalls context.request.retrySafe)
      fun reply => reply.context.request.retrySafe = context.request.retrySafe := by
  unfold executeTransport
  dsimp only
  refine (Spends.emit fun _ => rfl).free fun _ _ => (Spends.ask _).free fun resolution _ => ?_
  refine (Spends.emit fun _ => rfl).free fun _ _ => .ite (fun _ => ?_) fun _ => ?_
  · refine (Spends.emit fun _ => rfl).free fun _ _ => (Spends.tell _).free fun _ _ => ?_
    exact .pure rfl
  · have hcalls : (resolution.addresses.take (if context.request.retrySafe then 2 else 1)).length *
        (if context.request.retrySafe then 3 else 1) ≤ attemptCalls context.request.retrySafe := by
      rw [List.length_take]
      unfold attemptCalls
      split_ifs <;> omega
    refine Spends.le ?_ hcalls
    exact (spends_tryAddresses env config _ resolution _ _ _).last fun reply _ => .pure rfl

end Client

/-! ### The orchestrator -/

namespace Orchestrator

variable {chain : Terminal σ} {n : ℕ}

/-- A stage asks an engine at most `n` times for a context satisfying `pre`. -/
def Costs (chain : Terminal σ) (pre : RequestContext → Prop) (n : ℕ) : Prop :=
  ∀ context response, pre context → Spends (chain context response) n fun _ => True

/-- The retry loop: the attempts that are left, times the cost of one. -/
theorem spends_retryLoop {b : Bool}
    (hchain : ∀ context response, context.request.retrySafe = b →
      Spends (chain context response) n fun reply => reply.context.request.retrySafe = b)
    (initialTimeout deadlineMs : ℤ) (left attempt : ℕ) (context : RequestContext)
    (response : Response) (hb : context.request.retrySafe = b) :
    Spends (retryLoop env chain initialTimeout deadlineMs left attempt context response)
      ((left + 1) * n) fun _ => True := by
  induction left generalizing attempt context response with
  | zero =>
    unfold retryLoop
    dsimp only
    refine (Spends.now env _).free fun t _ => .ite (fun _ => .pure trivial) fun _ => ?_
    rw [Nat.zero_add, Nat.one_mul]
    have hstart : (context.forAttempt (toInt (deadlineMs - t))).request.retrySafe = b := hb
    refine (hchain _ _ hstart).last fun reply _ => ?_
    exact .ite (fun _ => .pure trivial) fun _ => .pure trivial
  | succ left ih =>
    unfold retryLoop
    dsimp only
    refine (Spends.now env _).free fun t _ => .ite (fun _ => .pure trivial) fun _ => ?_
    -- this attempt, and those of the rest of the loop
    rw [Nat.succ_mul, Nat.add_comm ((left + 1) * n) n]
    have hstart : (context.forAttempt (toInt (deadlineMs - t))).request.retrySafe = b := hb
    refine (hchain _ _ hstart).bind fun reply hreply => ?_
    refine .ite (fun _ => .pure trivial) fun _ => ?_
    refine (Spends.now env _).free fun t _ => .ite (fun _ => .pure trivial) fun _ => ?_
    refine (Spends.emit fun _ => rfl).free fun _ _ => (Spends.tell _).free fun _ _ => ?_
    exact ih _ _ _ hreply

/-- The number of attempts the retry interceptor allows. -/
theorem costs_retry {b : Bool}
    (hchain : ∀ context response, context.request.retrySafe = b →
      Spends (chain context response) n fun reply => reply.context.request.retrySafe = b) :
    Costs (retry env chain) (fun context => context.request.retrySafe = b ∧ context.maxRetries ≤ 1)
      (if b then 2 * n else n) := by
  rintro context response ⟨hb, hmax⟩
  unfold retry
  dsimp only
  refine (Spends.now env _).free fun t _ => ?_
  refine (spends_retryLoop env hchain _ _ _ _ _ _ hb).le ?_
  rw [hb]
  cases b with
  | false => simp
  | true =>
    simp only [↓reduceIte]
    exact Nat.mul_le_mul_right n (by omega)

theorem costs_weakNet {b : Bool}
    (hchain : Costs chain (fun context => context.request.retrySafe = b ∧ context.maxRetries ≤ 1) n) :
    Costs (weakNet env chain)
      (fun context => context.request.retrySafe = b ∧ context.maxRetries ≤ 1) n := by
  rintro context response ⟨hb, hmax⟩
  unfold weakNet
  dsimp only
  refine (Spends.ask _).free fun weakLink _ => .ite (fun _ => ?_) fun _ => hchain _ _ ⟨hb, hmax⟩
  refine (Spends.ask _).free fun snapshot _ => hchain _ _ ⟨hb, ?_⟩
  split_ifs
  · exact zero_le_one
  · exact min_le_right _ _

/-- Leader, follower or alone: the operation runs at most once. -/
theorem costs_coalesce {pre : RequestContext → Prop} (hchain : Costs chain pre n) :
    Costs (coalesce env chain) pre n := by
  intro context response hpre
  unfold coalesce
  dsimp only
  refine .ite (fun _ => hchain _ _ hpre) fun _ => (Spends.ask _).free fun flight _ => ?_
  cases flight with
  | full => exact hchain _ _ hpre
  | follower =>
    refine (Spends.now env _).free fun t _ => (Spends.ask _).free fun answer _ => ?_
    cases answer with
    | none => exact .pure trivial
    | some answer => exact .pure trivial
  | leader =>
    exact (hchain _ _ hpre).last fun reply _ => (Spends.tell _).free fun _ _ => .pure trivial

/-- The whole orchestrator around a transport. -/
theorem spends_execute {b : Bool}
    (hchain : ∀ context response, context.request.retrySafe = b →
      Spends (chain context response) n fun reply => reply.context.request.retrySafe = b)
    (context : RequestContext) (response : Response)
    (hb : (normalizeRetrySafety context).request.retrySafe = b)
    (hmax : (normalizeRetrySafety context).maxRetries ≤ 1) :
    Spends (execute env chain context response) (if b then 2 * n else n) fun _ => True :=
  costs_coalesce env (costs_weakNet env (costs_retry env hchain)) _ _ ⟨hb, hmax⟩

end Orchestrator

/-! ### The client -/

namespace Client

theorem hasIdempotencyKey_iff (headers : List Header) :
    Orchestrator.hasIdempotencyKey headers = true ↔ ∃ header ∈ headers,
      ByteString.lower header.name = ByteString.ascii "idempotency-key" ∧
        ∃ c ∈ header.value, ByteString.isSpace c = false := by
  simp [Orchestrator.hasIdempotencyKey, Orchestrator.hasVisibleChar]

/-- The replay safety the pipeline computes is `ReplaySafe` of the caller's request. -/
theorem retrySafe_normalizeRetrySafety (config : ClientConfig) (req : Request)
    (policy : ProtocolPolicy) (startedMs requestId networkEpoch : ℕ) :
    (Orchestrator.normalizeRetrySafety
      (initialContext config req policy startedMs requestId networkEpoch)).request.retrySafe =
        decide (ReplaySafe req) := by
  rw [Bool.eq_iff_iff, decide_eq_true_iff, ReplaySafe, ← hasIdempotencyKey_iff]
  simp [Orchestrator.normalizeRetrySafety, initialContext, isReplayableSafeMethod,
    Orchestrator.isSafeMethod]
  tauto

theorem maxRetries_normalizeRetrySafety (config : ClientConfig) (req : Request)
    (policy : ProtocolPolicy) (startedMs requestId networkEpoch : ℕ) :
    (Orchestrator.normalizeRetrySafety
      (initialContext config req policy startedMs requestId networkEpoch)).maxRetries ≤ 1 := by
  have hbool : ∀ b c : Bool, (if b then max (if c then (1 : ℤ) else 0) 1 else 0) ≤ 1 := by decide
  exact hbool _ _

theorem spends_totalTime (startedMs : ℕ) (response : Response) :
    Spends (totalTime env startedMs response) 0 fun _ => True :=
  .ite (fun _ => (Spends.now env _).free fun _ _ => .pure trivial) fun _ => .pure trivial

theorem spends_requestWithPolicy (env : ClientEnv σ) (config : ClientConfig) (req : Request)
    (policy : ProtocolPolicy) (resp : Response) :
    Spends (requestWithPolicy env config req policy resp) (if ReplaySafe req then 12 else 1)
      fun _ => True := by
  unfold requestWithPolicy
  dsimp only
  refine (Spends.ask _).free fun nested _ => .ite (fun _ => .pure trivial) fun _ => ?_
  refine (Spends.now _ _).free fun startedMs _ => ?_
  refine (Spends.ask _).free fun destroyed _ => .ite (fun _ => .pure trivial) fun _ => ?_
  refine (Spends.ask _).free fun before _ => (Spends.ask _).free fun requestId _ => ?_
  refine (Spends.ask _).free fun networkEpoch _ => ?_
  -- the transport does not change whether the request is replay-safe
  have hchain : ∀ context response, context.request.retrySafe = decide (ReplaySafe req) →
      Spends (executeTransport env.toEnv config context response)
        (attemptCalls (decide (ReplaySafe req)))
        fun reply => reply.context.request.retrySafe = decide (ReplaySafe req) := by
    intro context response hb
    rw [← hb]
    exact spends_executeTransport env.toEnv config context response
  have hexecute := Orchestrator.spends_execute env.toEnv hchain
    (initialContext config req policy startedMs requestId networkEpoch) resp
    (retrySafe_normalizeRetrySafety ..) (maxRetries_normalizeRetrySafety ..)
  have hcalls : (if decide (ReplaySafe req) = true then 2 * attemptCalls (decide (ReplaySafe req))
      else attemptCalls (decide (ReplaySafe req))) = if ReplaySafe req then 12 else 1 := by
    by_cases h : ReplaySafe req <;> simp [h, attemptCalls]
  rw [hcalls] at hexecute
  refine hexecute.last fun reply _ => (spends_totalTime env.toEnv _ _).free fun totalMs _ => ?_
  refine (Spends.ask _).free fun after _ => (Spends.tell _).free fun _ _ => ?_
  exact .ite (fun _ => (Spends.tell _).free fun _ _ => .pure trivial) fun _ => .pure trivial

/-- **At most once.**  A request that is not replay-safe reaches an engine at most once, whatever the
resolver, the breakers, the clock and the engines do; a replay-safe one at most twelve times. -/
theorem engineCalls_requestWithPolicy_le (env : ClientEnv σ) (config : ClientConfig) (req : Request)
    (policy : ProtocolPolicy) (resp : Response) (w : World σ) :
    engineCalls (requestWithPolicy env config req policy resp w).events ≤
      if ReplaySafe req then 12 else 1 :=
  ((spends_requestWithPolicy env config req policy resp).engineCalls_le w).1

end Client

end

end AsterNet
