import AsterNet.Engine.Http1.Engine

/-!
# The time of an HTTP/1.1 request (`http1_engine.cpp`)

The blocking calls of `Http1Engine::request`, in order, and when each of them starts: the attempts of
`connect_with_timeout`, `SSL_connect`, and every `SSL_write` and `SSL_read` of the loops.  A call waits in
socket calls, for a time that `SO_RCVTIMEO` and `SO_SNDTIMEO` bound; they are set when the socket is made,
from the timeout of the request that opens the connection, and never again.  A value that is not positive
sets no timeout.

Times are milliseconds.  What is computed between the calls takes no time.
-/

namespace AsterNet

namespace Http1

open ByteString Segmented

/-! ### The calls -/

/-- A blocking call. -/
inductive CallKind
  | connect
  | handshake
  | write
  | read
  deriving DecidableEq, Repr

/-- A blocking call, when it starts, and how long its socket calls wait. -/
structure TimedCall where
  kind : CallKind
  start : ℕ
  waits : List ℕ
  deriving DecidableEq, Repr

/-- The `SSL_write` calls of the write loop. -/
def writeCalls (data : Bytes) (ssl : Ssl) : ℕ :=
  if _hne : data = [] then 0
  else
    match _h : ssl.write (data.take intMax) with
    | none => 1
    | some (n, ssl') => 1 + writeCalls (data.drop n) ssl'
termination_by data.length
decreasing_by
  have hpos := (Ssl.write_some _h).2.1 (by simpa [intMax] using _hne)
  have := List.length_pos_of_ne_nil _hne
  rw [List.length_drop]
  omega

/-- The `SSL_read` calls of a read loop. -/
def readCalls (cond : Bytes → Bool) (size : Bytes → ℕ) (buf : Bytes) (source : Source) : ℕ :=
  if cond buf then
    match _h : source.read (size buf) with
    | .positive d rest => 1 + readCalls cond size (buf ++ d) rest
    | .zero => 1
    | .negative => 1
  else 0
termination_by source.bytes.length
decreasing_by exact Source.length_bytes_lt_of_read _h

/-- The `SSL_read` calls of the header loops. -/
def headCalls (httpStatus : ℤ) (raw : Bytes) (source : Source) : ℕ :=
  match _hr : readHeaders raw source with
  | (raw', source') =>
    readCalls headersPending (fun _ => bufSize) raw source +
      match _hf : find emptyLineMark raw' with
      | none => 0
      | some headerEnd =>
        if kMaxResponseHeaders < raw'.length then 0
        else
          let status := parseStatus raw' httpStatus
          if status.tdiv 100 = 1 then headCalls status (raw'.drop (headerEnd + 4)) source' else 0
termination_by raw.length + source.bytes.length
decreasing_by
  have hlen := congrArg List.length (readWhile_bytes headersPending (fun _ => bufSize) raw source)
  rw [show readWhile headersPending (fun _ => bufSize) raw source = (raw', source') from _hr] at hlen
  have := find_add_length_le _hf
  simp only [emptyLineMark, List.length_cons, List.length_nil, List.length_append,
    List.length_drop] at *
  omega

/-- The `SSL_read` calls of the body, in the framing the scan found. -/
def bodyCalls (req : Request) (head : Head) (scan : Scan) : ℕ :=
  let maxBody := req.maxResponseBodyBytes.toNat
  if noBodyStatus req head.httpStatus then 0
  else if scan.chunked then readCalls (chunkedPending maxBody) (fun _ => bufSize) head.body head.source
  else if scan.cl ≠ npos then
    if maxBody < scan.cl then 0
    else readCalls (fun body => decide (body.length < scan.cl)) (lengthReadSize scan.cl) head.body
      head.source
  else readCalls (fun body => decide (body.length ≤ maxBody)) (endReadSize maxBody) head.body head.source

/-- The `SSL_read` calls of a response. -/
def responseCalls (req : Request) (source : Source) : ℕ :=
  headCalls 0 [] source +
    match readHead [] 0 [] source with
    | .error _ => 0
    | .ok head =>
      let scan := scanHeaders head.headers
      if scan.invalid then 0 else bodyCalls req head scan

/-- The calls of a request on a connection. -/
def exchangeCalls (req : Request) (ssl : Ssl) : List CallKind :=
  if hasCrlf req.host || hasCrlf req.connectHost || hasCrlf req.method || hasCrlf req.path then []
  else
    match customHeaders req.headers with
    | none => []
    | some custom =>
      List.replicate (writeCalls (requestText req custom) ssl) .write ++
        match writeAll (requestText req custom) ssl with
        | none => []
        | some ssl => List.replicate (responseCalls req ssl.source) .read

/-- The calls of opening a connection, with this many addresses tried. -/
def openingCalls (attempts : ℕ) : Except DialFailure Unit → List CallKind
  | .ok () => List.replicate attempts .connect ++ [.handshake]
  | .error .handshake => List.replicate attempts .connect ++ [.handshake]
  | .error .handshakeTimeout => List.replicate attempts .connect ++ [.handshake]
  | .error _ => List.replicate attempts .connect

/-- The calls in time: the `i`-th one waits `waits i`. -/
def schedule (waits : ℕ → List ℕ) (start i : ℕ) : List CallKind → List TimedCall
  | [] => []
  | kind :: kinds =>
    ⟨kind, start, waits i⟩ :: schedule waits (start + (waits i).sum) (i + 1) kinds

/-! ### The request -/

/-- What a request meets: how long the name lookup takes, what opening a connection does if one is opened,
with the addresses tried, what the TLS connection does from here on, and how long each call waits. -/
structure Server where
  lookup : ℕ := 0
  attempts : ℕ := 1
  dial : Except DialFailure Unit := .ok ()
  ssl : Ssl
  waits : ℕ → List ℕ

/-- The engine, whose connection has the timeout its socket was given. -/
structure TimedEngine where
  settings : TlsSettings := {}
  connection : Option (PoolKey × ℤ) := none
  deriving DecidableEq, Repr

/-- `ensure_connection`: a new socket is given the timeout of the request. -/
def timedConnection (server : Server) (engine : TimedEngine) (req : Request) :
    Except DialFailure ((PoolKey × ℤ) × Bool) :=
  ensureConnection (fun _ timeoutMs => server.dial.map fun _ => timeoutMs) engine.settings
    engine.connection req

/-- The engine without the timeout, on the TLS connection of the server. -/
def TimedEngine.erase (engine : TimedEngine) (ssl : Ssl) : Http1Engine where
  settings := engine.settings
  connection := engine.connection.map fun connection => (connection.1, ssl)

/-- `Http1Engine::request`: its calls, and the connection it leaves. -/
def timedRequest (server : Server) (engine : TimedEngine) (req : Request) :
    List TimedCall × TimedEngine :=
  match timedConnection server engine req with
  | .error failure =>
    (schedule server.waits server.lookup 0 (openingCalls server.attempts (.error failure)),
      { engine with connection := none })
  | .ok ((key, timeoutMs), reused) =>
    let calls := exchangeCalls req server.ssl
    let kept := (request (fun _ _ => server.dial.map fun _ => server.ssl) (engine.erase server.ssl) req).2
    (if reused then schedule server.waits 0 0 calls
      else schedule server.waits server.lookup 0 (openingCalls server.attempts (.ok ()) ++ calls),
      { engine with connection := kept.connection.map fun _ => (key, timeoutMs) })

/-- The timeout of the socket that the request uses. -/
def socketTimeout (engine : TimedEngine) (req : Request) : ℤ :=
  match engine.connection with
  | none => req.timeoutMs
  | some (key, timeoutMs) => if key = poolKey engine.settings req then timeoutMs else req.timeoutMs

/-- A socket call returns within a timeout, if one is set. -/
def Within (timeoutMs : ℤ) (wait : ℕ) : Prop := 0 < timeoutMs → (wait : ℤ) ≤ timeoutMs

/-- Each socket call returns within the timeout of the socket. -/
def Server.Admissible (server : Server) (engine : TimedEngine) (req : Request) : Prop :=
  ∀ i, ∀ wait ∈ server.waits i, Within (socketTimeout engine req) wait

end Http1

end AsterNet
