import AsterNet.Engine.Http2.Engine

/-!
# The bytes of an HTTP/2 connection (`http2_engine.cpp`)

The loop of `Http2Engine::request` again, with the bytes: `send_callback` reads when `SSL_write` asks for
it and leaves what it reads in `pending_data`, the loop hands this to `nghttp2_session_mem_recv`, and then
reads itself.  `WireTurn` is what TLS, nghttp2 and the socket do in one turn.  The context of a request is
`H2Ctx` with its `pending_data`; it is made anew for every request, and the connection stays.

`Wire` is not in the source: the bytes that `SSL_read` has returned on the connection, and the inputs of
`nghttp2_session_mem_recv`.
-/

namespace AsterNet

namespace Http2

open ByteString

/-! ### TLS -/

/-- What `SSL_read` does: it returns bytes, none of them at the end of the stream, or it asks for a read
or for a write, for which `select_with_deadline` finds the socket ready in time or not. -/
inductive SslRead
  | read (bytes : Bytes)
  | wantRead
  | wantWrite (ready : Bool)
  | failed
  deriving DecidableEq, Repr

/-- What `SSL_write` does.  When it asks for a read and the socket is ready in time, `SSL_read` is next. -/
inductive SslWrite
  | wrote (length : ℕ)
  | wantWrite (ready : Bool)
  | wantRead (ready : Bool) (drain : SslRead)
  | failed
  deriving DecidableEq, Repr

/-- The bytes of a connection: those read, and the inputs of `nghttp2_session_mem_recv`. -/
structure Wire where
  read : Bytes := []
  passed : List Bytes := []
  deriving DecidableEq, Repr

/-- The context of a request with `pending_data`, and the connection. -/
structure WireCtx where
  ctx : H2Ctx
  pendingData : Bytes := []
  wire : Wire := {}
  deriving DecidableEq, Repr

/-- `SSL_read` has returned these bytes. -/
def Wire.readBytes (wire : Wire) (bytes : Bytes) : Wire :=
  { wire with read := wire.read ++ bytes }

/-- The bytes that `send_callback` reads. -/
def WireCtx.drain (s : WireCtx) (bytes : Bytes) : WireCtx :=
  { s with pendingData := s.pendingData ++ bytes, wire := s.wire.readBytes bytes }

/-! ### The send phase -/

/-- `while (sent < length)` of `send_callback`: whether all has been written.  When nothing happens any
more the deadline passes. -/
def sendCallback (length : ℕ) : List SslWrite → ℕ → WireCtx → Bool × WireCtx
  | [], sent, s => (decide (length ≤ sent), s)
  | write :: writes, sent, s =>
    if length ≤ sent then (true, s)
    else
      match write with
      | .wrote n => sendCallback length writes (sent + n) s
      | .wantWrite ready => if ready then sendCallback length writes sent s else (false, s)
      | .wantRead ready drain =>
        if ready then
          match drain with
          | .read bytes =>
            if 0 < bytes.length then sendCallback length writes sent (s.drain bytes) else (false, s)
          | .wantRead => sendCallback length writes sent s
          | .wantWrite _ => sendCallback length writes sent s
          | .failed => (false, s)
        else (false, s)
      | .failed => (false, s)

/-- `nghttp2_session_send`, by its calls of `send_callback`: it fails when one of them does. -/
def sessionSend : List (ℕ × List SslWrite) → WireCtx → Bool × WireCtx
  | [], s => (true, s)
  | (length, writes) :: sends, s =>
    match sendCallback length writes 0 s with
    | (true, s) => sessionSend sends s
    | (false, s) => (false, s)

/-! ### The receive phase -/

/-- `NGHTTP2_ERR_CALLBACK_FAILURE`. -/
def errCallbackFailure : ℤ := -902

/-- What `nghttp2_session_mem_recv` does with an input: what it returns, and the calls it makes. -/
abbrev MemRecv := Bytes → ℤ × List Callback

/-- `nghttp2_session_mem_recv`, which fails when a callback does. -/
def passBytes (recv : MemRecv) (bytes : Bytes) (s : WireCtx) : ℤ × WireCtx :=
  let (fatal, ctx) := memRecv s.ctx (recv bytes).2
  (if fatal then errCallbackFailure else (recv bytes).1,
    { s with ctx := ctx, wire := { s.wire with passed := s.wire.passed ++ [bytes] } })

/-- `for (;;)` around `SSL_read`: what is left when it does not ask for a write.  When nothing happens any
more it asks for a read. -/
def readLoop : List SslRead → SslRead
  | [] => .wantRead
  | .wantWrite true :: reads => readLoop reads
  | .wantWrite false :: _ => .failed
  | .read bytes :: _ => .read bytes
  | .wantRead :: _ => .wantRead
  | .failed :: _ => .failed

/-- The receive phase: the deadline passes, or `select` reports nothing, or the socket is readable. -/
inductive Receive
  | timeout
  | idle
  | readable (reads : List SslRead) (recv : MemRecv)

/-- One turn of the loop.  `closes` are the streams that `nghttp2_session_send` reports as closed, and
`sendFails` that it fails by itself. -/
structure WireTurn where
  sends : List (ℕ × List SslWrite) := []
  closes : List (ℤ × ℕ) := []
  sendFails : Bool := false
  recvPending : MemRecv
  receive : Receive

/-- What a phase makes of the loop: it goes on, or it ends with a result. -/
inductive Phase
  | go (s : WireCtx)
  | stop (ret : Result) (s : WireCtx)
  deriving DecidableEq, Repr

/-- The send phase, and what it has read. -/
def sendPhase (turn : WireTurn) (s : WireCtx) : Phase :=
  match sessionSend turn.sends s with
  | (sent, s) =>
    if !sent || turn.sendFails then .stop .errProtocol s
    else
      let s := { s with
        ctx := turn.closes.foldl (fun ctx close => onStreamCloseCallback ctx close.1 close.2) s.ctx }
      if s.pendingData.isEmpty then .go s
      else
        match passBytes turn.recvPending s.pendingData s with
        | (consumed, s) =>
          if consumed < 0 then .stop .errProtocol s
          else .go { s with pendingData := s.pendingData.drop consumed.toNat }

/-- The receive phase. -/
def receivePhase (turn : WireTurn) (s : WireCtx) : Phase :=
  match turn.receive with
  | .timeout => .stop .errTimeout s
  | .idle => .go s
  | .readable reads recv =>
    match readLoop reads with
    | .read bytes =>
      if 0 < bytes.length then
        match passBytes recv bytes { s with wire := s.wire.readBytes bytes } with
        | (consumed, s) =>
          if consumed < 0 then .stop .errProtocol s
          else .go { s with pendingData := s.pendingData ++ bytes.drop consumed.toNat }
      else .stop .errProtocol s
    | .wantRead => .go s
    | .wantWrite _ => .stop .errProtocol s
    | .failed => .stop .errProtocol s

/-- `while (!h2ctx.stream_closed)`.  When nothing happens any more the deadline passes. -/
def wireLoop (s : WireCtx) : List WireTurn → Result × WireCtx
  | [] => if s.ctx.streamClosed then (.ok, s) else (.errTimeout, s)
  | turn :: turns =>
    if s.ctx.streamClosed then (.ok, s)
    else
      match sendPhase turn s with
      | .stop ret s => (ret, s)
      | .go s =>
        if s.ctx.streamClosed then (.ok, s)
        else
          match receivePhase turn s with
          | .stop ret s => (ret, s)
          | .go s => wireLoop s turns

/-! ### The request -/

/-- What becomes of one request outside, with what opening a connection does if one is opened. -/
structure WireExchange where
  dial : Except DialFailure Unit
  settings : Result := .ok
  alpn : Bytes := ascii "h2"
  streamId : ℤ
  turns : List WireTurn

/-- The engine, whose connection has its bytes. -/
structure WireEngine where
  settings : TlsSettings := {}
  connection : Option (PoolKey × Wire) := none
  deriving DecidableEq, Repr

/-- From `nghttp2_submit_request` to the reply, with the bytes of the connection and whether it is kept. -/
def wireExchange (req : Request) (outside : WireExchange) (reused : Bool) (wire : Wire) :
    Reply × Wire × Bool :=
  let (ret, s) := wireLoop { ctx := newContext req outside.streamId, wire := wire } outside.turns
  let ret := judge ret s.ctx
  ({ errCode := ret, failureStage := failureStage ret, httpStatus := s.ctx.httpStatus,
     body := s.ctx.respBody, connectionReused := reused }, s.wire, keepsConnection ret s.ctx)

/-- `Http2Engine::request`. -/
def wireRequest (outside : WireExchange) (engine : WireEngine) (req : Request) : Reply × WireEngine :=
  if hasCrlf req.host || hasCrlf req.connectHost || hasCrlf req.method || hasCrlf req.path then
    ({ errCode := .errProtocol, failureStage := "header" }, engine)
  else
    let closed := { engine with connection := none }
    match ensureConnection (fun _ _ => outside.dial.map fun _ => {}) engine.settings engine.connection
      req with
    | .error failure =>
      ({ errCode := failure.result,
         failureStage := if failure.result = .errConnect then "connect" else "tls" }, closed)
    | .ok ((key, wire), reused) =>
      if reused = false ∧ outside.settings ≠ .ok then
        ({ errCode := outside.settings, connectionReused := reused }, closed)
      else if outside.alpn ≠ ascii "h2" then
        ({ errCode := .errProtocol, failureStage := "protocol", connectionReused := reused }, closed)
      else
        match customHeaders req.headers with
        | none =>
          ({ errCode := .errProtocol, failureStage := "header", connectionReused := reused }, closed)
        | some _ =>
          if outside.streamId < 0 then
            ({ errCode := .errProtocol, failureStage := "protocol", connectionReused := reused }, closed)
          else
            let (reply, wire, keep) := wireExchange req outside reused wire
            (reply, { engine with connection := if keep then some (key, wire) else none })

end Http2

end AsterNet
