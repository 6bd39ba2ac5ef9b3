import AsterNet.Engine.ProtocolSelector

/-!
# Request orchestration (`interceptor.cpp`)

Replay safety, coalescing of equal requests, and the two interceptors: the weak-network limit and
the retry loop.  The chain is fixed (weak network, then retry), so `Chain::proceed` is function
composition over a `Terminal`.
-/

namespace AsterNet

open Effect Prog

/-- `RequestContext`. -/
structure RequestContext where
  request : Request
  policy : ProtocolPolicy := .auto
  requestId : ℕ := 0
  networkEpoch : ℕ := 0
  attempts : ℤ := 0
  maxRetries : ℤ := 1
  deadlineMs : ℤ := 0
  weakNetwork : Bool := false
  deduplicated : Bool := false
  dnsCacheHit : Bool := false
  deriving DecidableEq, Repr

/-- The context of the next attempt. -/
def RequestContext.forAttempt (context : RequestContext) (remainingMs : ℤ) : RequestContext :=
  { context with
    request := { context.request with timeoutMs := remainingMs }
    attempts := context.attempts + 1 }

/-- A result with the two arguments passed by reference. -/
structure Reply where
  result : Result
  context : RequestContext
  response : Response
  deriving DecidableEq, Repr

/-- The end of the retry loop: the attempts are reported and the caller's timeout is restored. -/
def Reply.afterRetry (reply : Reply) (initialTimeout : ℤ) : Reply :=
  { reply with
    context := { reply.context with
      request := { reply.context.request with timeoutMs := initialTimeout } }
    response := { reply.response with attempts := reply.context.attempts } }

/-- `orchestrator::Terminal`, and every stage that ends in one. -/
abbrev Terminal (σ : Type) := RequestContext → Response → Prog σ Reply

namespace Orchestrator

/-- `has_visible_char`. -/
def hasVisibleChar (value : Bytes) : Bool := value.any fun c => !ByteString.isSpace c

/-- `is_dedup_header`. -/
def isDedupHeader (name : Bytes) : Bool :=
  name == ByteString.ascii "accept" || name == ByteString.ascii "accept-encoding"
    || name == ByteString.ascii "accept-language" || name == ByteString.ascii "content-type"
    || name == ByteString.ascii "range"

def kMaxDedupPathBytes : ℕ := 4096
def kMaxDedupHeaderValueBytes : ℕ := 1024

/-- `is_shareable`. -/
def isShareable (context : RequestContext) : Bool :=
  context.request.retrySafe
    && (context.request.method == ByteString.ascii "GET"
      || context.request.method == ByteString.ascii "HEAD")
    && context.request.body.isEmpty
    && context.request.connectHost.isEmpty && context.request.caCertPem.isEmpty
    && context.request.path.length ≤ kMaxDedupPathBytes
    && context.request.headers.all fun header =>
      let name := ByteString.lower header.name
      name != ByteString.ascii "authorization" && name != ByteString.ascii "cookie"
        && name != ByteString.ascii "proxy-authorization"
        && isDedupHeader name && header.value.length ≤ kMaxDedupHeaderValueBytes

/-- `is_safe_method`. -/
def isSafeMethod (method : Bytes) : Bool :=
  method == ByteString.ascii "GET" || method == ByteString.ascii "HEAD"
    || method == ByteString.ascii "OPTIONS"

/-- `has_idempotency_key`. -/
def hasIdempotencyKey (headers : List Header) : Bool :=
  headers.any fun header =>
    ByteString.lower header.name == ByteString.ascii "idempotency-key"
      && hasVisibleChar header.value

/-- `normalize_retry_safety`. -/
def normalizeRetrySafety (context : RequestContext) : RequestContext :=
  let replayableSafeMethod := context.request.body.isEmpty && isSafeMethod context.request.method
  let retrySafe := context.request.retrySafe || replayableSafeMethod
    || (context.request.idempotent && hasIdempotencyKey context.request.headers)
  { context with
    request := { context.request with retrySafe }
    maxRetries := if retrySafe then max context.maxRetries 1 else 0 }

/-- The number behind an `asternet_protocol_policy_t`. -/
def policyNumber : ProtocolPolicy → ℤ
  | .auto => 0
  | .http11Only => 1
  | .http2Only => 2
  | .http3Only => 3
  | .preferHttp3 => 4
  | .preferHttp2 => 5
  | .other value => value

/-- `operator<<` of a signed number. -/
def signed (n : ℤ) : Bytes :=
  if n < 0 then 45 :: ByteString.decimal n.natAbs else ByteString.decimal n.natAbs

/-- `dedup_key`. -/
def dedupKey (context : RequestContext) : Bytes :=
  let line (s : Bytes) : Bytes := s ++ [10]
  line context.request.host ++ line (ByteString.decimal context.request.port.toNat)
    ++ line context.request.method ++ line context.request.path
    ++ line (signed (policyNumber context.policy)) ++ line (ByteString.decimal context.networkEpoch)
    ++ line (ByteString.decimal context.request.maxResponseBodyBytes.toNat)
    ++ line (signed context.request.timeoutMs) ++ line (signed context.maxRetries)
    ++ context.request.headers.flatMap fun header =>
      let name := ByteString.lower header.name
      if isDedupHeader name then line (name ++ 58 :: header.value) else []

variable {σ : Type} (env : Env σ)

/-- The loop of `RetryInterceptor::intercept`; `left` attempts may follow this one. -/
def retryLoop (chain : Terminal σ) (initialTimeout deadlineMs : ℤ) :
    ℕ → ℕ → Terminal σ
  | left, attempt, context, response => do
    let t ← now env .retryRemaining
    let remainingMs := toInt (deadlineMs - t)
    if remainingMs ≤ 0 then
      pure
        { result := .errTimeout
          context
          response := { response with errCode := .errTimeout, failureStage := "deadline" } }
    else do
      let reply ← chain (context.forAttempt remainingMs) {}
      if reply.result = .ok || !isRetryable reply.result then pure (reply.afterRetry initialTimeout)
      else
        match left with
        | 0 => pure (reply.afterRetry initialTimeout)
        | left + 1 => do
          -- exponential backoff with jitter, never beyond the request's deadline
          let baseDelayMs : ℤ := min 400 (50 * 2 ^ min attempt 3)
          let delayMs := baseDelayMs + (reply.context.requestId % 31 : ℕ)
          let t ← now env .retryBackoff
          if deadlineMs ≤ t + delayMs then pure (reply.afterRetry initialTimeout)
          else do
            Program.emit (.sleep delayMs)
            tell (env.sleepFor delayMs)
            retryLoop chain initialTimeout deadlineMs left (attempt + 1) reply.context
              { reply.response with attempts := reply.context.attempts }

/-- `RetryInterceptor::intercept`. -/
def retry (chain : Terminal σ) : Terminal σ := fun context response => do
  let initialTimeout := context.request.timeoutMs
  let t ← now env .retryFallback
  let deadlineMs : ℤ := if 0 < context.deadlineMs then context.deadlineMs else t + initialTimeout
  let retryLimit := if context.request.retrySafe then max 0 context.maxRetries else 0
  retryLoop env chain initialTimeout deadlineMs retryLimit.toNat 0 context response

/-- `WeakNetInterceptor::intercept`. -/
def weakNet (chain : Terminal σ) : Terminal σ := fun context response => do
  let weakLink ← ask env.isWeakNet
  let context := { context with weakNetwork := weakLink }
  if weakLink then do
    let snapshot ← ask env.snapshot
    chain
      { context with
        maxRetries := if snapshot.quality = .offline then 0 else min context.maxRetries 1 }
      response
  else chain context response

/-- `RequestCoalescer::execute`. -/
def coalesce (operation : Terminal σ) : Terminal σ := fun context response =>
  if !isShareable context then operation context response
  else do
    let key := dedupKey context
    match ← ask (env.joinFlight key) with
    | .full => operation context response
    | .follower => do
      let context := { context with deduplicated := true }
      let t ← now env .followerWait
      let deadlineMs : ℤ := if 0 < context.deadlineMs then context.deadlineMs
        else t + context.request.timeoutMs
      match ← ask (env.waitFlight key deadlineMs) with
      | none =>
        pure
          { result := .errTimeout
            context
            response := { response with errCode := .errTimeout, failureStage := "dedup_wait" } }
      | some (result, response, dnsCacheHit) =>
        pure { result, context := { context with dnsCacheHit }, response }
    | .leader => do
      let reply ← operation context response
      tell (env.publishFlight key reply.result reply.response reply.context.dnsCacheHit)
      pure reply

/-- `RequestOrchestrator::execute`. -/
def execute (terminal : Terminal σ) : Terminal σ := fun context response =>
  coalesce env (weakNet env (retry env terminal)) (normalizeRetrySafety context) response

end Orchestrator

end AsterNet
