import AsterNet.Client.Client

/-!
# What the events of a request look like

`Ghost` is what the events so far tell: the readings of the clock that budgets are computed from and
the addresses of the last resolution.  `traceMonitor T R` says of each event how it follows from
them: the timeout a resolve or an engine is handed, and the address an engine is told to connect to.
`accepts_requestWithPolicy`: the events of every request are accepted.  The results about deadlines
and about addresses are read off the accepted events, without the programs.
-/

namespace AsterNet

open Effect Prog

/-- What the events so far tell. -/
structure Ghost where
  /-- The clock at the start of the request. -/
  started : ℕ := 0
  /-- The clock when the current attempt's budget was taken. -/
  budget : ℕ := 0
  /-- The clock when the current selector run started. -/
  start : ℕ := 0
  /-- The latest clock reading. -/
  last : ℕ := 0
  addresses : List Bytes := []

namespace Ghost

/-- The ghost value after an event. -/
def next (k : Ghost) : Event → Ghost
  | .clock .requestStart t => { k with started := t, budget := t, start := t, last := t }
  | .clock .retryRemaining t => { k with budget := t, start := t, last := t }
  | .clock .selectorStart t => { k with start := t, last := t }
  | .clock _ t => { k with last := t }
  | .resolved resolution => { k with addresses := resolution.addresses.map (·.ip) }
  | _ => k

/-- The readings that only tell the time. -/
theorem next_clock {site : ClockSite} (h : site ≠ .requestStart ∧ site ≠ .retryRemaining ∧
    site ≠ .selectorStart) (k : Ghost) (t : ℕ) : k.next (.clock site t) = { k with last := t } := by
  obtain ⟨h1, h2, h3⟩ := h
  cases site <;> first | rfl | contradiction

/-- The budget of the current attempt: what is left of `T`, as the `int` the code stores. -/
def left (T : ℤ) (k : Ghost) : ℤ := toInt (k.started + T - k.budget)

end Ghost

/-- How an event follows from the ones before it; `R` is what is known of every resolution. -/
def traceMonitor (T : ℤ) (R : Dns.ResolveResult → Prop) : Monitor Event Ghost where
  next := Ghost.next
  ok k
    | .resolve _ _ timeoutMs => timeoutMs = k.left T ∧ 0 < k.left T ∧ k.last = k.budget
    | .resolved resolution => R resolution
    | .engineRequest _ req =>
      req.timeoutMs = toInt (k.left T - (k.last - k.start)) ∧
        0 < k.left T - (k.last - k.start) ∧ 0 < k.left T ∧ req.connectHost ∈ k.addresses
    | _ => True

section

variable {T : ℤ} {R : Dns.ResolveResult → Prop} {s b c : ℕ} {as : List Bytes}

/-- The ghost value inside one selector run. -/
structure InRun (s b c : ℕ) (as : List Bytes) (k : Ghost) : Prop where
  started : k.started = s
  budget : k.budget = b
  start : k.start = c
  addresses : k.addresses = as

/-- The ghost value between two selector runs of one attempt. -/
structure InAttempt (s b : ℕ) (as : List Bytes) (k : Ghost) : Prop where
  started : k.started = s
  budget : k.budget = b
  addresses : k.addresses = as

variable {σ : Type} (env : Env σ) (settings : ProtocolSelector.Settings)

/-- Reading the clock inside a selector run. -/
theorem trace_now {site : ClockSite} (h : site ≠ .requestStart ∧ site ≠ .retryRemaining ∧
    site ≠ .selectorStart) :
    (traceMonitor T R).Triple (InRun s b c as) (now env site)
      fun t k => k.last = t ∧ InRun s b c as k := by
  refine triple_now env site fun k t hk => ⟨trivial, ?_⟩
  show (k.next _).last = t ∧ InRun s b c as (k.next _)
  rw [Ghost.next_clock h]
  exact ⟨rfl, hk.1, hk.2, hk.3, hk.4⟩

/-- Reading the clock between the stages. -/
theorem trace_now_started {site : ClockSite} (h : site ≠ .requestStart) :
    (traceMonitor T R).Triple (fun k => k.started = s) (now env site) fun _ k => k.started = s := by
  refine triple_now env site fun k t hk => ⟨trivial, ?_⟩
  cases site
  case requestStart => exact absurd rfl h
  all_goals exact hk

/-! ### The selector -/

namespace ProtocolSelector

theorem trace_isAvailable (type : EngineType) (req : Request) :
    (traceMonitor T R).Triple (InRun s b c as) (isAvailable env type req)
      fun _ => InRun s b c as := by
  unfold isAvailable
  refine Monitor.triple_bind triple_getBreakers fun states => ?_
  split
  · exact Monitor.triple_pure fun _ hk => hk
  · refine Monitor.triple_ite (fun _ => Monitor.triple_pure fun _ hk => hk) fun _ => ?_
    refine Monitor.triple_bind (trace_now env (by decide)) fun t => ?_
    refine Monitor.triple_ite (fun _ => ?_) fun _ => Monitor.triple_pure fun _ hk => hk.2
    exact Monitor.triple_bind (triple_setBreakers _) fun _ => Monitor.triple_pure fun _ hk => hk.2

theorem trace_circuitAllows (plan : Plan) (type : EngineType) (req : Request) :
    (traceMonitor T R).Triple (InRun s b c as) (circuitAllows env plan type req)
      fun _ => InRun s b c as :=
  Monitor.triple_ite (fun _ => trace_isAvailable env type req)
    fun _ => Monitor.triple_pure fun _ hk => hk

theorem trace_recordFailure (type : EngineType) (req : Request) :
    (traceMonitor T R).Triple (InRun s b c as) (recordFailure env settings type req)
      fun _ => InRun s b c as := by
  unfold recordFailure
  dsimp only
  refine Monitor.triple_bind triple_getBreakers fun states => ?_
  refine Monitor.triple_bind triple_ask_any fun choice => ?_
  refine Monitor.triple_ite (fun _ => ?_) fun _ => triple_setBreakers _
  refine Monitor.triple_bind (trace_now env (by decide)) fun t => ?_
  exact (triple_setBreakers _).conseq (fun _ hk => hk.2) fun _ _ hk => hk

theorem trace_recordSuccess (type : EngineType) (req : Request) :
    (traceMonitor T R).Triple (InRun s b c as) (recordSuccess type req : Prog σ Unit)
      fun _ => InRun s b c as := by
  unfold recordSuccess
  dsimp only
  refine Monitor.triple_bind triple_getBreakers fun states => ?_
  split
  · exact Monitor.triple_pure fun _ hk => hk
  · exact triple_setBreakers _

/-- The chain, in a run whose request has the attempt's budget and connects to a resolved address. -/
theorem trace_tryChain (req : Request) (plan : Plan) (htimeout : req.timeoutMs = toInt (s + T - b))
    (hpos : 0 < req.timeoutMs) (hhost : req.connectHost ∈ as) (steps : List Step)
    (lastError : Result) (degraded : Bool) (attempts : ℤ) (resp : Response) :
    (traceMonitor T R).Triple (InRun s b c as)
      (tryChain env settings req plan c steps lastError degraded attempts resp)
      fun _ => InRun s b c as := by
  -- the induction is on the steps that are left; every one of them begins in the attempt's run
  induction steps generalizing lastError degraded attempts resp with
  | nil => exact Monitor.triple_pure fun _ hk => hk
  | cons step rest ih =>
    unfold tryChain
    cases env.engine step.type with
    | none =>
      exact Monitor.triple_ite (fun _ => ih _ _ _ _) fun _ => Monitor.triple_pure fun _ hk => hk
    | some engine =>
      dsimp only
      refine Monitor.triple_bind (trace_circuitAllows env plan step.type req) fun available => ?_
      refine Monitor.triple_ite (fun _ => ?_) fun _ => Monitor.triple_ite (fun _ => ih _ _ _ _)
        fun _ => Monitor.triple_pure fun _ hk => hk
      refine Monitor.triple_bind (trace_now env (by decide)) fun t => ?_
      refine Monitor.triple_ite (fun _ => Monitor.triple_pure fun _ hk => hk.2) fun hleft => ?_
      rw [if_pos hpos, not_le] at hleft
      -- the engine is asked for what the attempt has left at this reading
      have hrequest : (traceMonitor T R).Triple (fun k => k.last = t ∧ InRun s b c as k)
          (engineRequest step.type engine
            { req with timeoutMs := toInt ((if 0 < req.timeoutMs then req.timeoutMs else 15000) -
              ((t : ℤ) - c)) })
          fun _ => InRun s b c as := by
        refine Monitor.triple_bind (Monitor.triple_emit fun k hk => ⟨?_, hk.2⟩)
          fun _ => triple_ask_any
        obtain ⟨hlast, hs, hb, hc, has⟩ := hk
        have hbudget : k.left T = req.timeoutMs := by rw [Ghost.left, hs, hb, htimeout]
        show _ = toInt (k.left T - (k.last - k.start)) ∧ _
        rw [hbudget, hlast, hc, has, if_pos hpos]
        exact ⟨rfl, hleft, hpos, hhost⟩
      refine Monitor.triple_bind hrequest fun reply => ?_
      refine Monitor.triple_ite (fun _ => ?_) fun _ => Monitor.triple_ite (fun _ => ?_)
        fun _ => Monitor.triple_pure fun _ hk => hk
      · exact Monitor.triple_bind (trace_recordSuccess step.type req)
          fun _ => Monitor.triple_pure fun _ hk => hk
      · refine Monitor.triple_bind (trace_recordFailure env settings step.type req) fun _ => ?_
        exact Monitor.triple_ite (fun _ => ih _ _ _ _) fun _ => Monitor.triple_pure fun _ hk => hk

theorem trace_requestWithPolicy (req : Request) (policy : ProtocolPolicy) (resp : Response)
    (htimeout : req.timeoutMs = toInt (s + T - b)) (hpos : 0 < req.timeoutMs)
    (hhost : req.connectHost ∈ as) :
    (traceMonitor T R).Triple (InAttempt s b as) (requestWithPolicy env settings req policy resp)
      fun _ => InAttempt s b as := by
  unfold requestWithPolicy
  cases planOf policy with
  | none => exact Monitor.triple_pure fun _ hk => hk
  | some plan =>
    refine Monitor.triple_bind (triple_now env .selectorStart fun k t hk =>
      ⟨trivial, (⟨hk.1, hk.2, rfl, hk.3⟩ : InRun s b t as (k.next (.clock .selectorStart t)))⟩)
      fun c => ?_
    exact (trace_tryChain env settings req plan htimeout hpos hhost _ _ _ _ _).conseq
      (fun _ hk => hk) fun _ _ hk => ⟨hk.1, hk.2, hk.4⟩

end ProtocolSelector

/-! ### The transport -/

namespace Client

variable (config : ClientConfig)

theorem trace_tryAddresses (context : RequestContext) (resolution : Dns.ResolveResult)
    (htimeout : context.request.timeoutMs = toInt (s + T - b)) (hpos : 0 < context.request.timeoutMs)
    (addresses : List Dns.IpResult) (has : ∀ address ∈ addresses, address.ip ∈ as)
    (result : Result) (response : Response) :
    (traceMonitor T R).Triple (InAttempt s b as)
      (tryAddresses env config context resolution addresses result response)
      fun _ => InAttempt s b as := by
  induction addresses generalizing result response with
  | nil => exact Monitor.triple_pure fun _ hk => hk
  | cons address rest ih =>
    -- what the client reports does not touch the ghost
    have hemit : ∀ e : Event, (∀ k : Ghost, k.next e = k ∧ (traceMonitor T R).ok k e) →
        (traceMonitor T R).Triple (InAttempt s b as) (Program.emit e : Prog σ Unit)
          fun _ => InAttempt s b as := by
      intro e he
      refine Monitor.triple_emit fun k hk => ⟨(he k).2, ?_⟩
      show InAttempt s b as (k.next e)
      rw [(he k).1]
      exact hk
    unfold tryAddresses
    dsimp only
    refine Monitor.triple_bind triple_ask_any fun lease => ?_
    refine Monitor.triple_bind (ProtocolSelector.trace_requestWithPolicy env config.settings _ _ _
      htimeout hpos (has address (List.mem_cons_self ..))) fun outcome => ?_
    refine Monitor.triple_bind triple_tell fun _ => ?_
    refine Monitor.triple_bind (hemit _ fun _ => ⟨rfl, trivial⟩) fun _ => ?_
    refine Monitor.triple_bind triple_tell fun _ => ?_
    refine Monitor.triple_bind (hemit _ fun _ => ⟨rfl, trivial⟩) fun _ => ?_
    refine Monitor.triple_bind triple_tell fun _ => ?_
    refine Monitor.triple_ite (fun _ => ?_) fun _ => Monitor.triple_pure fun _ hk => hk
    exact ih (fun address haddress => has address (List.mem_cons_of_mem _ haddress)) _ _

/-- The ghost value when an attempt begins. -/
structure Begins (s b : ℕ) (k : Ghost) : Prop where
  started : k.started = s
  budget : k.budget = b
  last : k.last = b

theorem trace_executeTransport (hR : ∀ host networkEpoch timeoutMs w,
      R (env.resolveWithMetadata host networkEpoch timeoutMs w).1)
    (context : RequestContext) (response : Response)
    (htimeout : context.request.timeoutMs = toInt (s + T - b))
    (hpos : 0 < context.request.timeoutMs) :
    (traceMonitor T R).Triple (Begins s b) (executeTransport env config context response)
      fun _ k => k.started = s := by
  unfold executeTransport
  dsimp only
  -- the resolver gets the whole budget of the attempt
  have hresolve : (traceMonitor T R).Triple (Begins s b) (Program.emit (.resolve
      context.request.host context.networkEpoch context.request.timeoutMs) : Prog σ Unit)
      fun _ => Begins s b := by
    refine Monitor.triple_emit fun k hk => ⟨?_, hk⟩
    have hbudget : k.left T = context.request.timeoutMs := by
      rw [Ghost.left, hk.started, hk.budget, htimeout]
    exact ⟨hbudget.symm, hbudget ▸ hpos, hk.last.trans hk.budget.symm⟩
  refine Monitor.triple_bind hresolve fun _ => ?_
  refine Monitor.triple_bind (triple_ask (Q := R) (hR _ _ _)) fun resolution => ?_
  refine Monitor.triple_of_and fun hresolution => ?_
  -- the answer is what `R` says, and its addresses are those of the attempt
  have hresolved : (traceMonitor T R).Triple (Begins s b)
      (Program.emit (.resolved resolution) : Prog σ Unit)
      fun _ => InAttempt s b (resolution.addresses.map (·.ip)) :=
    Monitor.triple_emit fun k hk => ⟨hresolution, hk.started, hk.budget, rfl⟩
  refine Monitor.triple_bind hresolved fun _ => Monitor.triple_ite (fun _ => ?_) fun _ => ?_
  · have hobserve : (traceMonitor T R).Triple (InAttempt s b (resolution.addresses.map (·.ip)))
        (Program.emit (.observe false (-1)) : Prog σ Unit) fun _ k => k.started = s :=
      Monitor.triple_emit fun k hk => ⟨trivial, hk.started⟩
    refine Monitor.triple_bind hobserve fun _ => ?_
    exact Monitor.triple_bind triple_tell fun _ => Monitor.triple_pure fun _ hk => hk
  · -- only resolved addresses are tried
    have htake : ∀ address ∈ resolution.addresses.take (if context.request.retrySafe then 2 else 1),
        address.ip ∈ resolution.addresses.map (·.ip) :=
      fun address haddress => List.mem_map_of_mem (List.mem_of_mem_take haddress)
    refine Monitor.triple_bind (trace_tryAddresses env config
      { context with
        dnsCacheHit := if context.attempts ≤ 1 then resolution.cacheHit else context.dnsCacheHit }
      resolution htimeout hpos _ htake _ _) fun _ => ?_
    exact Monitor.triple_pure fun _ hk => hk.started

end Client

/-! ### The orchestrator -/

namespace Orchestrator

/-- A stage keeps the start of the request, for a context with the request's deadline. -/
def Traces (T : ℤ) (R : Dns.ResolveResult → Prop) (chain : Terminal σ)
    (pre : ℕ → RequestContext → Prop) : Prop :=
  ∀ s context response, pre s context →
    (traceMonitor T R).Triple (fun k => k.started = s) (chain context response)
      fun _ k => k.started = s

variable {chain : Terminal σ}

theorem trace_retryLoop (s : ℕ)
    (hchain : ∀ (b : ℕ) context response, context.request.timeoutMs = toInt (s + T - b) →
      0 < context.request.timeoutMs →
      (traceMonitor T R).Triple (Client.Begins s b) (chain context response)
        fun _ k => k.started = s)
    (initialTimeout : ℤ) (left attempt : ℕ) (context : RequestContext) (response : Response) :
    (traceMonitor T R).Triple (fun k => k.started = s)
      (retryLoop env chain initialTimeout (s + T) left attempt context response)
      fun _ k => k.started = s := by
  induction left generalizing attempt context response with
  | zero =>
    unfold retryLoop
    dsimp only
    -- every attempt takes its budget at its own reading of the clock
    refine Monitor.triple_bind (triple_now env .retryRemaining fun k t hk =>
      ⟨trivial, (⟨hk, rfl, rfl⟩ : Client.Begins s t (k.next (.clock .retryRemaining t)))⟩)
      fun b => ?_
    refine Monitor.triple_ite (fun _ => Monitor.triple_pure fun _ hk => hk.started) fun hpos => ?_
    rw [not_le] at hpos
    refine Monitor.triple_bind (hchain b (context.forAttempt (toInt (s + T - b))) _ rfl hpos)
      fun reply => ?_
    exact Monitor.triple_ite (fun _ => Monitor.triple_pure fun _ hk => hk)
      fun _ => Monitor.triple_pure fun _ hk => hk
  | succ left ih =>
    unfold retryLoop
    dsimp only
    refine Monitor.triple_bind (triple_now env .retryRemaining fun k t hk =>
      ⟨trivial, (⟨hk, rfl, rfl⟩ : Client.Begins s t (k.next (.clock .retryRemaining t)))⟩)
      fun b => ?_
    refine Monitor.triple_ite (fun _ => Monitor.triple_pure fun _ hk => hk.started) fun hpos => ?_
    rw [not_le] at hpos
    refine Monitor.triple_bind (hchain b (context.forAttempt (toInt (s + T - b))) _ rfl hpos)
      fun reply => ?_
    refine Monitor.triple_ite (fun _ => Monitor.triple_pure fun _ hk => hk) fun _ => ?_
    refine Monitor.triple_bind (trace_now_started env (by decide)) fun t => ?_
    refine Monitor.triple_ite (fun _ => Monitor.triple_pure fun _ hk => hk) fun _ => ?_
    -- a sleep is no reading of the clock, so the next attempt begins as this one did
    have hsleep : ∀ ms, (traceMonitor T R).Triple (fun k => k.started = s)
        (Program.emit (.sleep ms) : Prog σ Unit) fun _ k => k.started = s :=
      fun ms => Monitor.triple_emit fun k hk => ⟨trivial, hk⟩
    refine Monitor.triple_bind (hsleep _) fun _ => Monitor.triple_bind triple_tell fun _ => ?_
    exact ih _ _ _

theorem trace_retry
    (hchain : ∀ (s b : ℕ) context response, context.request.timeoutMs = toInt (s + T - b) →
      0 < context.request.timeoutMs →
      (traceMonitor T R).Triple (Client.Begins s b) (chain context response)
        fun _ k => k.started = s) :
    Traces T R (retry env chain) fun s context => context.deadlineMs = s + T ∧ 0 < s + T := by
  rintro s context response ⟨hdeadline, hpos⟩
  unfold retry
  dsimp only
  refine Monitor.triple_bind (trace_now_started env (by decide)) fun t => ?_
  rw [hdeadline, if_pos hpos]
  exact trace_retryLoop env s (hchain s) _ _ _ _ _

theorem trace_weakNet
    (hchain : Traces T R chain fun s context => context.deadlineMs = s + T ∧ 0 < s + T) :
    Traces T R (weakNet env chain) fun s context => context.deadlineMs = s + T ∧ 0 < s + T := by
  intro s context response hpre
  unfold weakNet
  dsimp only
  refine Monitor.triple_bind triple_ask_any fun weakLink => ?_
  refine Monitor.triple_ite (fun _ => ?_) fun _ => hchain s _ _ hpre
  exact Monitor.triple_bind triple_ask_any fun snapshot => hchain s _ _ hpre

theorem trace_coalesce {pre : ℕ → RequestContext → Prop} (hchain : Traces T R chain pre) :
    Traces T R (coalesce env chain) pre := by
  intro s context response hpre
  unfold coalesce
  dsimp only
  refine Monitor.triple_ite (fun _ => hchain s _ _ hpre) fun _ => ?_
  refine Monitor.triple_bind triple_ask_any fun flight => ?_
  cases flight with
  | full => exact hchain s _ _ hpre
  | follower =>
    refine Monitor.triple_bind (trace_now_started env (by decide)) fun t => ?_
    refine Monitor.triple_bind triple_ask_any fun answer => ?_
    cases answer with
    | none => exact Monitor.triple_pure fun _ hk => hk
    | some answer => exact Monitor.triple_pure fun _ hk => hk
  | leader =>
    refine Monitor.triple_bind (hchain s _ _ hpre) fun reply => ?_
    exact Monitor.triple_bind triple_tell fun _ => Monitor.triple_pure fun _ hk => hk

end Orchestrator

/-! ### The client -/

namespace Client

theorem effectiveTimeout_pos (config : ClientConfig) (req : Request) :
    0 < effectiveTimeout config req := by
  unfold effectiveTimeout
  split_ifs <;> first | assumption | decide

/-- **The events of a request** follow from each other as `traceMonitor` says. -/
theorem accepts_requestWithPolicy (env : ClientEnv σ) (config : ClientConfig)
    (hR : ∀ host networkEpoch timeoutMs w,
      R (env.resolveWithMetadata host networkEpoch timeoutMs w).1)
    (req : Request) (policy : ProtocolPolicy) (resp : Response) (w : World σ) (k : Ghost) :
    (traceMonitor (effectiveTimeout config req) R).Accepts k
      (requestWithPolicy env config req policy resp w).events := by
  have htrace : (traceMonitor (effectiveTimeout config req) R).Triple (fun _ => True)
      (requestWithPolicy env config req policy resp) fun _ _ => True := by
    unfold requestWithPolicy
    dsimp only
    have hdone : ∀ {α : Type} {a : α} {pre : Ghost → Prop},
        (traceMonitor (effectiveTimeout config req) R).Triple pre (pure a : Prog σ α)
          fun _ _ => True := Monitor.triple_pure fun _ _ => trivial
    refine Monitor.triple_bind triple_ask_any fun nested => ?_
    refine Monitor.triple_ite (fun _ => hdone) fun _ => ?_
    -- the start is read once, and every later event refers to it
    have hstart : (traceMonitor (effectiveTimeout config req) R).Triple (fun _ => True)
        (now env.toEnv .requestStart) fun t k => k.started = t :=
      triple_now env.toEnv _ fun _ _ _ => ⟨trivial, rfl⟩
    refine Monitor.triple_bind hstart fun s => ?_
    refine Monitor.triple_bind triple_ask_any fun destroyed => ?_
    refine Monitor.triple_ite (fun _ => hdone) fun _ => ?_
    refine Monitor.triple_bind triple_ask_any fun before => ?_
    refine Monitor.triple_bind triple_ask_any fun requestId => ?_
    refine Monitor.triple_bind triple_ask_any fun epoch => ?_
    have hpos : 0 < (s : ℤ) + effectiveTimeout config req := by
      have := effectiveTimeout_pos config req
      omega
    -- the three stages, from the outside in
    have hexecute := Orchestrator.trace_coalesce env.toEnv (Orchestrator.trace_weakNet env.toEnv
      (Orchestrator.trace_retry env.toEnv fun s b context response htimeout hpos =>
        trace_executeTransport env.toEnv config hR context response htimeout hpos)) s
      (Orchestrator.normalizeRetrySafety (initialContext config req policy s requestId epoch)) resp
      ⟨rfl, hpos⟩
    refine Monitor.triple_bind hexecute fun reply => ?_
    -- the total time is read at the end and asks for nothing
    have htotal : (traceMonitor (effectiveTimeout config req) R).Triple (fun k => k.started = s)
        (totalTime env.toEnv s reply.response) fun _ _ => True := by
      refine Monitor.triple_ite (fun _ => ?_) fun _ => hdone
      exact Monitor.triple_bind (trace_now_started env.toEnv (by decide)) fun _ => hdone
    refine Monitor.triple_bind htotal fun total => Monitor.triple_bind triple_ask_any fun after => ?_
    refine Monitor.triple_bind triple_tell fun _ => Monitor.triple_ite (fun _ => ?_) fun _ => hdone
    exact Monitor.triple_bind triple_tell fun _ => hdone
  exact (htrace w k trivial).1

end Client

end

end AsterNet
