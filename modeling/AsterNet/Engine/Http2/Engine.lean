import AsterNet.Engine.Http2.Context
import AsterNet.Engine.Pooled

/-!
# The HTTP/2 engine (`http2_engine.cpp`)

`Http2Engine::request`: the request headers, the loop that sends and receives, and the judgement of
what the callbacks left in the context.  What TLS, nghttp2 and the peer do with one request is an
`Exchange`, a parameter.
-/

namespace AsterNet

namespace Http2

open ByteString

/-! ### The request headers -/

/-- `has_crlf`. -/
def hasCrlf (s : Bytes) : Bool := s.any fun c => c == 13 || c == 10

/-- `token` of `append_custom_header`. -/
def isTokenChar (c : UInt8) : Bool := isAlnum c || (ascii "!#$%&'*+-.^_`|~").contains c

/-- The names that are left out. -/
def ownedHeader (lowerName : Bytes) : Bool :=
  [ascii "host", ascii "connection", ascii "content-length", ascii "transfer-encoding",
    ascii "keep-alive", ascii "proxy-connection", ascii "upgrade"].contains lowerName

/-- `append_custom_header`: the header as it is forwarded, if it is; `none` when it is refused.  Unlike
the other engines this one looks at `te`. -/
def customHeader (h : Header) : Option (Option Header) :=
  if hasCrlf h.name || hasCrlf h.value || h.name.isEmpty || h.name.head? = some 58 then none
  else if h.name.all isTokenChar = false then none
  else if lower h.name = ascii "te" ∧ trimBlanks (lower h.value) ≠ ascii "trailers" then none
  else if ownedHeader (lower h.name) then some none
  else some (some h)

/-- The custom headers in order, unless one is refused. -/
def customHeaders (headers : List Header) : Option (List Header) :=
  (headers.mapM customHeader).map fun forwarded => forwarded.filterMap id

/-- `h2ctx.authority`: the port is left out when it is 443. -/
def authority (req : Request) : Bytes :=
  if req.port ≠ 443 then req.host ++ ascii ":" ++ decimal req.port.toNat else req.host

/-- `nvs`. -/
def requestHeaders (req : Request) (custom : List Header) : List Header :=
  [⟨ascii ":method", req.method⟩, ⟨ascii ":scheme", ascii "https"⟩,
    ⟨ascii ":authority", authority req⟩, ⟨ascii ":path", req.path⟩,
    ⟨ascii "user-agent", ascii "asternet/0.1"⟩] ++ custom

/-! ### The loop -/

/-- What one turn of the loop meets.  `received` is a call of `nghttp2_session_mem_recv` with the
calls it makes and whether it fails by itself afterwards. -/
inductive Turn
  | sendFailed
  | received (callbacks : List Callback) (failed : Bool := false)
  | idle
  | timeout
  | closed
  | readFailed
  deriving DecidableEq, Repr

/-- `while (!h2ctx.stream_closed)`.  When nothing happens any more the deadline passes. -/
def loop (ctx : H2Ctx) : List Turn → Result × H2Ctx
  | [] => if ctx.streamClosed then (.ok, ctx) else (.errTimeout, ctx)
  | turn :: turns =>
    if ctx.streamClosed then (.ok, ctx)
    else match turn with
      | .sendFailed => (.errProtocol, ctx)
      | .received callbacks failed =>
        match memRecv ctx callbacks with
        | (fatal, ctx') => if fatal || failed then (.errProtocol, ctx') else loop ctx' turns
      | .idle => loop ctx turns
      | .timeout => (.errTimeout, ctx)
      | .closed => (.errProtocol, ctx)
      | .readFailed => (.errProtocol, ctx)

/-- The result of the request. -/
def judge (ret : Result) (ctx : H2Ctx) : Result :=
  if ctx.bodyLimitExceeded then .errBufferTooSmall
  else if ctx.forbiddenBodyReceived then .errProtocol
  else if ret = .ok ∧ (ctx.gotStatus = false ∨ ctx.gotEndStream = false ∨ ctx.streamError ≠ 0) then
    .errProtocol
  else ret

/-- `keep_connection`. -/
def keepsConnection (ret : Result) (ctx : H2Ctx) : Bool :=
  ret = .ok && ctx.gotStatus && ctx.gotEndStream && ctx.streamError = 0 && !ctx.bodyLimitExceeded &&
    !ctx.forbiddenBodyReceived && !ctx.goawayReceived

/-- `failure_stage` of the result. -/
def failureStage : Result → String
  | .ok => ""
  | .errTimeout => "timeout"
  | .errTls => "tls"
  | .errConnect => "connect"
  | _ => "protocol"

/-! ### The request -/

/-- What becomes of one request outside: the result of `nghttp2_submit_settings` on a new connection,
the protocol ALPN selected, the stream id of `nghttp2_submit_request` (negative when it fails), and
the turns of the loop. -/
structure Exchange where
  settings : Result := .ok
  alpn : Bytes := ascii "h2"
  streamId : ℤ
  turns : List Turn
  deriving DecidableEq, Repr

/-- What `Http2Engine::request` answers, without the times it measures. -/
structure Reply where
  errCode : Result
  failureStage : String := ""
  httpStatus : ℤ := 0
  body : Bytes := []
  connectionReused : Bool := false
  deriving DecidableEq, Repr

/-- The state of the engine.  A connection is known by its key alone; what happens on it is part of the
exchanges. -/
structure Http2Engine where
  settings : TlsSettings := {}
  connection : Option (PoolKey × Unit) := none
  deriving DecidableEq, Repr

/-- Opening connections: TCP, TLS with ALPN, and the nghttp2 session. -/
abbrev Dial := PoolKey → ℤ → Except DialFailure Unit

/-- From `nghttp2_submit_request` to the reply. -/
def exchange (req : Request) (outside : Exchange) (reused : Bool) : Reply × Bool :=
  let (ret, ctx) := loop (newContext req outside.streamId) outside.turns
  let ret := judge ret ctx
  ({ errCode := ret, failureStage := failureStage ret, httpStatus := ctx.httpStatus,
     body := ctx.respBody, connectionReused := reused }, keepsConnection ret ctx)

/-- `Http2Engine::request`. -/
def request (dial : Dial) (outside : Exchange) (engine : Http2Engine) (req : Request) :
    Reply × Http2Engine :=
  if hasCrlf req.host || hasCrlf req.connectHost || hasCrlf req.method || hasCrlf req.path then
    ({ errCode := .errProtocol, failureStage := "header" }, engine)
  else
    let closed := { engine with connection := none }
    match ensureConnection dial engine.settings engine.connection req with
    | .error failure =>
      ({ errCode := failure.result,
         failureStage := if failure.result = .errConnect then "connect" else "tls" }, closed)
    | .ok (connection, reused) =>
      if reused = false ∧ outside.settings ≠ .ok then
        ({ errCode := outside.settings, connectionReused := reused }, closed)
      else if outside.alpn ≠ ascii "h2" then
        ({ errCode := .errProtocol, failureStage := "protocol", connectionReused := reused }, closed)
      else
        match customHeaders req.headers with
        | none =>
          ({ errCode := .errProtocol, failureStage := "header", connectionReused := reused }, closed)
        | some _ =>
          if outside.streamId < 0 then
            ({ errCode := .errProtocol, failureStage := "protocol", connectionReused := reused }, closed)
          else
            let (reply, keep) := exchange req outside reused
            (reply, { engine with connection := if keep then some connection else none })

/-- `Http2Engine::migrate_connection`. -/
def migrateConnection (engine : Http2Engine) : Http2Engine := { engine with connection := none }

end Http2

end AsterNet
