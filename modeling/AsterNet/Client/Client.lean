import AsterNet.Orchestrator.Interceptor

/-!
# The client (`client.cpp`)

`Client::request_with_policy` and `Client::execute_transport`.  `ClientEnv` adds what the client
reads of itself: its lifecycle, counters and the sinks for metrics and quality changes.  The
constructor builds every component, so the tests for a missing one are left out.
-/

namespace AsterNet

open Effect Prog

/-- The outside of a client. -/
structure ClientEnv (σ : Type) extends Env σ where
  /-- This client or too many others are already active on the calling thread. -/
  nested : σ → Bool × σ
  destroyed : σ → Bool × σ
  nextRequestId : σ → ℕ × σ
  networkEpoch : σ → ℕ × σ
  reportMetrics : RequestContext → Response → Result → σ → σ
  publishQualityChange : QualitySnapshot → σ → σ

/-- The part of `asternet_client_config_t` a request reads, and the selector's settings. -/
structure ClientConfig where
  defaultTimeoutMs : ℤ := 0
  settings : ProtocolSelector.Settings := {}
  deriving DecidableEq, Repr

/-- What `request_with_policy` returns and writes through its arguments. -/
structure RequestResult where
  result : Result
  response : Response
  actualProto : Protocol := .unknown
  degraded : Bool := false
  deriving DecidableEq, Repr

namespace Client

/-- `is_replayable_safe_method`. -/
def isReplayableSafeMethod (request : Request) : Bool :=
  request.body.isEmpty
    && (request.method == ByteString.ascii "GET" || request.method == ByteString.ascii "HEAD"
      || request.method == ByteString.ascii "OPTIONS")

/-- `failure_stage_for`. -/
def failureStageFor : Result → String
  | .errDns => "dns"
  | .errConnect => "connect"
  | .errTls => "tls"
  | .errTimeout => "timeout"
  | .errProtocol => "protocol"
  | .errCanceled => "canceled"
  | _ => "internal"

/-- The timeout a request runs under. -/
def effectiveTimeout (config : ClientConfig) (req : Request) : ℤ :=
  if 0 < req.timeoutMs then req.timeoutMs
  else if 0 < config.defaultTimeoutMs then config.defaultTimeoutMs else 15000

/-- The context `request_with_policy` builds. -/
def initialContext (config : ClientConfig) (req : Request) (policy : ProtocolPolicy)
    (startedMs requestId networkEpoch : ℕ) : RequestContext :=
  let timeoutMs := effectiveTimeout config req
  let retrySafe := req.retrySafe || isReplayableSafeMethod req
  { request :=
      { req with
        allowInsecureTlsForTesting := false
        timeoutMs
        networkEpoch
        retrySafe }
    policy
    requestId
    networkEpoch
    maxRetries := if retrySafe then 1 else 0
    deadlineMs := startedMs + timeoutMs }

/-- The quality differs enough to be published. -/
def qualityChanged (before after : QualitySnapshot) : Bool :=
  after.networkEpoch != before.networkEpoch || after.network != before.network
    || after.quality != before.quality || after.score != before.score
    || after.samples != before.samples || after.totalFailures != before.totalFailures

variable {σ : Type}

/-- The loop of `execute_transport` over the addresses it may try. -/
def tryAddresses (env : Env σ) (config : ClientConfig) (context : RequestContext)
    (resolution : Dns.ResolveResult) : List Dns.IpResult → Result → Response →
    Prog σ (Result × Response)
  | [], result, response => pure (result, response)
  | address :: rest, _, response => do
    let attempt := { context.request with connectHost := address.ip, dnsMs := resolution.elapsedMs }
    let lease ← ask <| env.acquire
      { host := attempt.host, port := attempt.port, networkEpoch := context.networkEpoch }
    let outcome ← ProtocolSelector.requestWithPolicy env config.settings attempt context.policy response
    let result := outcome.code
    let response := outcome.resp
    tell (env.release lease (result == .ok))
    let observedRtt := toInt (if 0 ≤ response.ttfbMs then response.ttfbMs else response.totalMs)
    Program.emit (.reportConnectionResult attempt.host attempt.connectHost context.networkEpoch
      (result == .ok) observedRtt)
    tell (env.reportConnectionResult attempt.host attempt.connectHost context.networkEpoch
      (result == .ok) observedRtt)
    Program.emit (.observe (result == .ok) observedRtt)
    tell (env.observe (result == .ok) observedRtt)
    if result = .errConnect then tryAddresses env config context resolution rest result response
    else pure (result, response)

/-- The end of `execute_transport`. -/
def finishTransport (resolution : Dns.ResolveResult) (result : Result) (response : Response) :
    Response :=
  { response with
    dnsMs := if response.dnsMs < 0 then resolution.elapsedMs else response.dnsMs
    failureStage := if result ≠ .ok ∧ response.failureStage.isEmpty then failureStageFor result
      else response.failureStage }

/-- `execute_transport`. -/
def executeTransport (env : Env σ) (config : ClientConfig) : Terminal σ :=
  fun context response => do
    Program.emit (.resolve context.request.host context.networkEpoch context.request.timeoutMs)
    let resolution ← ask <| env.resolveWithMetadata context.request.host context.networkEpoch
      context.request.timeoutMs
    Program.emit (.resolved resolution)
    let context := { context with
      dnsCacheHit := if context.attempts ≤ 1 then resolution.cacheHit else context.dnsCacheHit }
    let response := { response with dnsMs := resolution.elapsedMs }
    if resolution.error ≠ .ok ∨ resolution.addresses.isEmpty then do
      Program.emit (.observe false (-1))
      tell (env.observe false (-1))
      pure
        { result := .errDns
          context
          response := { response with errCode := .errDns, failureStage := "dns" } }
    else do
      let maxAddresses := if context.request.retrySafe then 2 else 1
      let (result, response) ← tryAddresses env config context resolution
        (resolution.addresses.take maxAddresses) .errConnect response
      pure { result, context, response := finishTransport resolution result response }

/-- `total_ms` of the reply, measured here unless the engine did. -/
def totalTime (env : Env σ) (startedMs : ℕ) (response : Response) : Prog σ ℤ :=
  if response.totalMs < 0 then do
    let t ← now env .requestEnd
    pure (t - startedMs)
  else pure response.totalMs

/-- `request_with_policy`. -/
def requestWithPolicy (env : ClientEnv σ) (config : ClientConfig) (req : Request)
    (policy : ProtocolPolicy) (resp : Response) : Prog σ RequestResult := do
  if ← ask env.nested then pure { result := .errInternal, response := resp }
  else do
    let startedMs ← now env.toEnv .requestStart
    if ← ask env.destroyed then pure { result := .errCanceled, response := resp }
    else do
      let before ← ask env.snapshot
      let requestId ← ask env.nextRequestId
      let networkEpoch ← ask env.networkEpoch
      let context := initialContext config req policy startedMs requestId networkEpoch
      let reply ← Orchestrator.execute env.toEnv (executeTransport env.toEnv config) context resp
      let ret := reply.result
      let totalMs ← totalTime env.toEnv startedMs reply.response
      let response := { reply.response with
        totalMs
        failureStage := if reply.response.failureStage.isEmpty ∧ ret ≠ .ok then failureStageFor ret
          else reply.response.failureStage
        attempts := max reply.response.attempts reply.context.attempts }
      let after ← ask env.snapshot
      tell (env.reportMetrics reply.context response ret)
      if qualityChanged before after then tell (env.publishQualityChange after)
      pure
        { result := ret
          response
          actualProto := response.protocol
          degraded := response.degraded }

end Client

end AsterNet
