import AsterNet.Engine.Engine
import AsterNet.Lib.Numeral

/-!
# The request context and the callbacks of the HTTP/3 engine

`RequestContext`, the context of the one request a `QuicEngine` runs at a time, and the XQUIC callbacks
that read and write it.  What XQUIC hands to a callback is an argument.
-/

namespace AsterNet

namespace Http3

open ByteString

/-- `RequestContext`, without the socket, the measured times and the packet counters. -/
structure RequestContext where
  authority : Bytes := []
  path : Bytes := []
  method : Bytes := []
  body : Bytes := []
  headers : List Header := []
  responseBody : Bytes := []
  httpStatus : ℤ := 0
  streamError : ℤ := 0
  requestBodySent : ℕ := 0
  maxResponseBodyBytes : ℕ := 16 * 1024 * 1024
  /-- `h3_request` was created. -/
  h3Request : Bool := false
  finished : Bool := false
  failed : Bool := false
  gotStatus : Bool := false
  responseFin : Bool := false
  bodyLimitExceeded : Bool := false
  tlsFailed : Bool := false
  deriving DecidableEq, Repr

/-- `authority`: the port is left out when it is 443. -/
def authority (req : Request) : Bytes :=
  if req.port ≠ 443 then req.host ++ ascii ":" ++ decimal req.port.toNat else req.host

/-- The context `request` sets up. -/
def newContext (req : Request) : RequestContext where
  authority := authority req
  path := req.path
  method := req.method
  body := req.body
  headers := req.headers
  maxResponseBodyBytes := req.maxResponseBodyBytes.toNat

/-! ### Sending -/

/-- The headers `h3_conn_handshake_finished_cb` sends. -/
def requestHeaders (ctx : RequestContext) : List Header :=
  [⟨ascii ":method", ctx.method⟩, ⟨ascii ":scheme", ascii "https"⟩,
    ⟨ascii ":authority", ctx.authority⟩, ⟨ascii ":path", ctx.path⟩,
    ⟨ascii "user-agent", ascii "asternet/0.1"⟩] ++ ctx.headers

/-- What `xqc_h3_request_send_body` answers. -/
inductive SendResult
  | sent (n : ℕ)
  | again
  | failed
  deriving DecidableEq, Repr

/-- `send_pending_body`, with the answers it gets. -/
def sendPendingBody (ctx : RequestContext) : List SendResult → RequestContext
  | [] => ctx
  | result :: results =>
    if ctx.h3Request = false ∨ ctx.body.length ≤ ctx.requestBodySent then ctx
    else match result with
      | .again => ctx
      | .failed => { ctx with failed := true }
      | .sent n =>
        if n = 0 ∨ ctx.body.length - ctx.requestBodySent < n then { ctx with failed := true }
        else sendPendingBody { ctx with requestBodySent := ctx.requestBodySent + n } results

/-- What becomes of the request when the handshake is finished. -/
inductive HandshakeOutcome
  | createFailed
  | sendHeadersFailed
  | sent (body : List SendResult)
  deriving DecidableEq, Repr

/-- `h3_conn_handshake_finished_cb`. -/
def handshakeFinished (ctx : RequestContext) (outcome : HandshakeOutcome) : RequestContext :=
  if ctx.h3Request then ctx
  else match outcome with
    | .createFailed => { ctx with failed := true }
    | .sendHeadersFailed => { ctx with h3Request := true, failed := true }
    | .sent body => sendPendingBody { ctx with h3Request := true } body

/-! ### Receiving -/

/-- `parse_http_status` for the value of a `:status` field. -/
def parseHttpStatus (value : Bytes) : Option ℤ :=
  if value.length ≠ 3 ∨ value.all isDigit = false then none
  else
    let parsed : ℤ := digitsValue 10 value
    if parsed < 100 ∨ 599 < parsed then none else some parsed

/-- `complete_response_if_ready`. -/
def completeResponseIfReady (ctx : RequestContext) : RequestContext :=
  if ctx.responseFin = false then ctx
  else if ctx.gotStatus = false then { ctx with failed := true }
  else if ctx.failed then ctx
  else { ctx with finished := true }

/-- The end of the response was seen. -/
def finish (ctx : RequestContext) : RequestContext :=
  completeResponseIfReady { ctx with responseFin := true }

/-- The search for `:status` in the initial headers: whether one was found, unless one is invalid or
they are two. -/
def scanStatus (ctx : RequestContext) (found : Bool) : List Header → Option Bool × RequestContext
  | [] => (some found, ctx)
  | header :: headers =>
    if header.name ≠ ascii ":status" then scanStatus ctx found headers
    else match found, parseHttpStatus header.value with
      | false, some status => scanStatus { ctx with httpStatus := status } true headers
      | _, _ => (none, { ctx with failed := true })

/-- What `xqc_h3_request_recv_headers` hands out: the fields and `fin`. -/
abbrev Received := Option (List Header × Bool)

/-- `consume_headers`: whether it succeeds. -/
def consumeHeaders (ctx : RequestContext) (isInitial : Bool) (received : Received) :
    Bool × RequestContext :=
  match received with
  | none => (false, { ctx with failed := true })
  | some (headers, fin) =>
    let (found, ctx) := if isInitial then scanStatus ctx false headers else (some true, ctx)
    match found with
    | none => (false, ctx)
    | some false => (false, { ctx with failed := true })
    | some true =>
      let ctx := if isInitial then { ctx with gotStatus := true } else ctx
      (true, if fin then finish ctx else ctx)

/-- What `xqc_h3_request_recv_body` hands out. -/
inductive BodyRead
  | again
  | failed
  | data (bytes : Bytes) (fin : Bool)
  deriving DecidableEq, Repr

/-- The loop over the body: whether it succeeds, and whether it saw `fin`. -/
def recvBody (ctx : RequestContext) : List BodyRead → Bool × Bool × RequestContext
  | [] => (true, false, ctx)
  | .again :: _ => (true, false, ctx)
  | .failed :: _ => (false, false, { ctx with failed := true })
  | .data bytes fin :: reads =>
    if 0 < bytes.length ∧ (ctx.maxResponseBodyBytes < bytes.length ∨
        ctx.maxResponseBodyBytes - bytes.length < ctx.responseBody.length) then
      (false, false, { ctx with bodyLimitExceeded := true, failed := true })
    else
      let ctx := { ctx with responseBody := ctx.responseBody ++ bytes }
      if fin then (true, true, ctx)
      else if bytes.length = 0 then (true, false, ctx)
      else recvBody ctx reads

/-- The flags of a read notification, each with what is then handed out. -/
structure ReadNotify where
  header : Option Received := none
  body : Option (List BodyRead) := none
  trailer : Option Received := none
  emptyFin : Bool := false
  deriving DecidableEq, Repr

/-- The part of `h3_request_read_notify_cb` for the body. -/
def readBody (ctx : RequestContext) (reads : List BodyRead) : Bool × RequestContext :=
  match recvBody ctx reads with
  | (false, _, ctx) => (false, ctx)
  | (true, fin, ctx) =>
    if ctx.failed then (false, ctx)
    else (true, if fin then finish ctx else ctx)

/-- `h3_request_read_notify_cb`; its result is not looked at by the model of XQUIC. -/
def readNotify (ctx : RequestContext) (notify : ReadNotify) : RequestContext :=
  let (ok, ctx) := notify.header.elim (true, ctx) (consumeHeaders ctx true)
  if ok = false then ctx
  else
    let (ok, ctx) := notify.body.elim (true, ctx) (readBody ctx)
    if ok = false then ctx
    else
      let (ok, ctx) := notify.trailer.elim (true, ctx) (consumeHeaders ctx false)
      if ok = false then ctx
      else if notify.emptyFin then finish ctx else ctx

/-- `h3_request_close_notify_cb`. -/
def closeNotify (ctx : RequestContext) (streamErr : ℤ) : RequestContext :=
  let ctx := { ctx with streamError := streamErr }
  if streamErr ≠ 0 ∨ ctx.responseFin = false ∨ ctx.gotStatus = false then { ctx with failed := true }
  else completeResponseIfReady ctx

/-! ### Events -/

/-- What the event loop brings. -/
inductive Event
  | certRejected
  | handshake (outcome : HandshakeOutcome)
  | readable (notify : ReadNotify)
  | writable (results : List SendResult)
  /-- The socket failed, or sending could not go on. -/
  | socketFailed
  /-- The QUIC connection was closed. -/
  | connClose
  /-- The HTTP/3 connection was closed, or the stream reset, with this error. -/
  | closing (err : ℤ)
  | streamClose (streamErr : ℤ)
  deriving DecidableEq, Repr

/-- One event. -/
def handle (ctx : RequestContext) : Event → RequestContext
  | .certRejected => { ctx with tlsFailed := true }
  | .handshake outcome => handshakeFinished ctx outcome
  | .readable notify => readNotify ctx notify
  | .writable results => sendPendingBody ctx results
  | .socketFailed => { ctx with failed := true }
  | .connClose => if ctx.finished then ctx else { ctx with failed := true }
  | .closing err => if ctx.finished then ctx else { ctx with streamError := err, failed := true }
  | .streamClose streamErr => closeNotify ctx streamErr

end Http3

end AsterNet
