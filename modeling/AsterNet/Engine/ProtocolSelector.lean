import AsterNet.Outside

/-!
# The protocol selector (`protocol_selector.cpp`)

The fallback chain HTTP/3, HTTP/2, HTTP/1.1 with its circuit breaker.
-/

namespace AsterNet

open Effect Prog

/-- The errors after which another attempt may help. -/
def isRetryable (result : Result) : Bool :=
  result == .errDns || result == .errConnect || result == .errTimeout || result == .errProtocol
    || result == .errUnsupported || result == .errDegraded

namespace ProtocolSelector

/-- The selector's settings. -/
structure Settings where
  maxFailures : ℤ := 3
  cooldownMs : ℤ := 60000
  maxStates : ℕ := 512
  deriving DecidableEq, Repr

/-- `state_host_key`. -/
def stateHostKey (request : Request) : Bytes :=
  request.host ++ 10 :: ByteString.decimal request.port.toNat ++
    10 :: ByteString.decimal request.networkEpoch

/-- A step of a chain. -/
structure Step where
  type : EngineType
  proto : Protocol
  deriving DecidableEq, Repr

def h3Step : Step := ⟨.http3, .http3⟩
def h2Step : Step := ⟨.http2, .http2⟩
def h1Step : Step := ⟨.http1, .http11⟩

/-- What a policy asks for. -/
structure Plan where
  chain : List Step
  allowFallback : Bool := true
  respectCircuit : Bool := true
  deriving DecidableEq, Repr

/-- The `switch` over the policy; `none` is its `default`. -/
def planOf : ProtocolPolicy → Option Plan
  | .auto | .preferHttp3 => some { chain := [h3Step, h2Step, h1Step] }
  | .preferHttp2 => some { chain := [h2Step, h1Step] }
  | .http3Only => some { chain := [h3Step], allowFallback := false, respectCircuit := false }
  | .http2Only => some { chain := [h2Step], allowFallback := false, respectCircuit := false }
  | .http11Only => some { chain := [h1Step], allowFallback := false, respectCircuit := false }
  | .other _ => none

/-- What `request_with_policy` returns and writes through its pointers. -/
structure Outcome where
  code : Result
  resp : Response
  actualProto : Protocol := .unknown
  degraded : Bool := false
  deriving DecidableEq, Repr

variable {σ : Type} (env : Env σ) (settings : Settings)

/-- `is_available`. -/
def isAvailable (type : EngineType) (request : Request) : Prog σ Bool := do
  let states ← getBreakers
  match states.lookup (stateHostKey request, type) with
  | none => pure true
  | some state =>
    if state.bannedUntilMs = 0 then pure true
    else do
      let t ← now env .breakerCheck
      if state.bannedUntilMs ≤ t then do
        setBreakers (states.insert (stateHostKey request, type) { failures := 0, bannedUntilMs := 0 })
        pure true
      else pure false

/-- `!(respect_circuit && !is_available(type, req))`. -/
def circuitAllows (plan : Plan) (type : EngineType) (request : Request) : Prog σ Bool :=
  if plan.respectCircuit then isAvailable env type request else pure true

/-- `record_failure`. -/
def recordFailure (type : EngineType) (request : Request) : Prog σ Unit := do
  let key := (stateHostKey request, type)
  let states ← getBreakers
  let choice ← ask env.pick
  let states := if settings.maxStates ≤ states.entries.length ∧ key ∉ states then
    UnorderedMap.eraseFirst choice states else states
  let state := (states.lookup key).getD {}
  let failures := state.failures + 1
  if settings.maxFailures ≤ failures then do
    let t ← now env .breakerBan
    setBreakers (states.insert key { failures, bannedUntilMs := t + settings.cooldownMs })
  else setBreakers (states.insert key { state with failures })

/-- `record_success`. -/
def recordSuccess (type : EngineType) (request : Request) : Prog σ Unit := do
  let key := (stateHostKey request, type)
  let states ← getBreakers
  match states.lookup key with
  | none => pure ()
  | some _ => setBreakers (states.insert key { failures := 0, bannedUntilMs := 0 })

/-- The end of `request_with_policy` without a success. -/
def failed (lastError : Result) (degraded : Bool) (attempts : ℤ) (resp : Response) : Outcome :=
  let errCode := if resp.errCode = .ok then lastError else resp.errCode
  { code := errCode, resp := { resp with errCode, attempts }, degraded }

/-- One engine's request. -/
def engineRequest (type : EngineType) (engine : Request → σ → (Result × Response) × σ)
    (attempt : Request) : Prog σ (Result × Response) := do
  Program.emit (.engineRequest type attempt)
  ask (engine attempt)

/-- The loop over the chain. -/
def tryChain (req : Request) (plan : Plan) (startMs : ℕ) :
    List Step → Result → Bool → ℤ → Response → Prog σ Outcome
  | [], lastError, degraded, attempts, resp => pure (failed lastError degraded attempts resp)
  | step :: rest, _, degraded, attempts, resp =>
    match env.engine step.type with
    | none =>
      if plan.allowFallback then
        tryChain req plan startMs rest .errUnsupported degraded attempts resp
      else pure (failed .errUnsupported degraded attempts resp)
    | some engine => do
      if ← circuitAllows env plan step.type req then do
        let t ← now env .selectorElapsed
        let elapsedMs : ℤ := t - startMs
        let configuredTimeoutMs := if 0 < req.timeoutMs then req.timeoutMs else 15000
        let remainingMs := configuredTimeoutMs - elapsedMs
        if remainingMs ≤ 0 then pure (failed .errTimeout degraded attempts resp)
        else do
          let (ret, tmp) ←
            engineRequest step.type engine { req with timeoutMs := toInt remainingMs }
          let attempts := attempts + 1
          if ret = .ok then do
            recordSuccess step.type req
            pure
              { code := .ok
                resp := { tmp with protocol := step.proto, degraded, attempts }
                actualProto := step.proto
                degraded }
          else if isRetryable ret then do
            recordFailure env settings step.type req
            -- retrying a request that is not replay-safe could duplicate an accepted write
            if plan.allowFallback && req.retrySafe then
              tryChain req plan startMs rest ret true attempts tmp
            else pure (failed ret degraded attempts tmp)
          else pure (failed ret degraded attempts tmp)
      else if plan.allowFallback then
        tryChain req plan startMs rest .errDegraded true attempts resp
      else pure (failed .errDegraded degraded attempts resp)

/-- `request_with_policy`. -/
def requestWithPolicy (req : Request) (policy : ProtocolPolicy) (resp : Response) :
    Prog σ Outcome :=
  match planOf policy with
  | none =>
    pure { code := .errInvalidArgument, resp := { resp with errCode := .errInvalidArgument } }
  | some plan => do
    let startMs ← now env .selectorStart
    tryChain env settings req plan startMs plan.chain .errUnsupported false 0 resp

end ProtocolSelector

end AsterNet
