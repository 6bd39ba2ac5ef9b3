import AsterNet.Engine.Http3.Context

/-!
# The HTTP/3 engine (`quic_engine.cpp`)

`QuicEngine::request`: one request on a connection of its own.  What the name lookup, the socket, XQUIC
and the peer do is an `Exchange`, a parameter.
-/

namespace AsterNet

namespace Http3

open ByteString

/-- The event loop: it polls until the request is finished or has failed, and the time is up when
nothing happens any more.  The Boolean says whether it timed out. -/
def poll (ctx : RequestContext) : List (List Event) → Bool × RequestContext
  | [] => (!ctx.finished && !ctx.failed, ctx)
  | events :: polls =>
    if ctx.finished || ctx.failed then (false, ctx)
    else poll (events.foldl handle ctx) polls

/-- What becomes of one request outside: where it fails before the connection is there, and the events
each poll brings. -/
structure Exchange where
  early : Option Result := none
  polls : List (List Event)
  deriving DecidableEq, Repr

/-- What `QuicEngine::request` answers, without the times it measures. -/
structure Reply where
  errCode : Result
  failureStage : String := ""
  httpStatus : ℤ := 0
  body : Bytes := []
  deriving DecidableEq, Repr

/-- `response_complete`. -/
def responseComplete (ctx : RequestContext) : Bool :=
  ctx.finished && ctx.gotStatus && ctx.responseFin && !ctx.failed

/-- The result of the request. -/
def judge (timedOut : Bool) (ctx : RequestContext) : Reply :=
  if responseComplete ctx then
    { errCode := .ok, httpStatus := ctx.httpStatus, body := ctx.responseBody }
  else if ctx.tlsFailed then { errCode := .errTls, httpStatus := ctx.httpStatus }
  else if ctx.bodyLimitExceeded then
    { errCode := .errBufferTooSmall, failureStage := "body", httpStatus := ctx.httpStatus }
  else if timedOut then { errCode := .errTimeout, httpStatus := ctx.httpStatus }
  else { errCode := .errProtocol, httpStatus := ctx.httpStatus }

/-- `QuicEngine::request`. -/
def request (outside : Exchange) (req : Request) : Reply :=
  match outside.early with
  | some err => { errCode := err }
  | none =>
    let (timedOut, ctx) := poll (newContext req) outside.polls
    judge timedOut ctx

end Http3

end AsterNet
