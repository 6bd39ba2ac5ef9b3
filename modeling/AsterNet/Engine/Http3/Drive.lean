import AsterNet.Engine.Http3.Engine
import AsterNet.Lib.Transition

/-!
# Driving XQUIC (`quic_engine.cpp`)

`QuicEngine` again, with what it drives: the UDP socket, the event loop that watches it, the timer of XQUIC
and the XQUIC engine itself.  Any number of requests run one after the other.  `Control` is where the
engine is in `request`; XQUIC calls back while it is inside a call of XQUIC (`Control.inXquic`), in any
order and any number of times, and the event loop may report any readiness of a socket.

`Event`s record the sockets and XQUIC engines that are made and released, the calls of XQUIC, what is
handed to XQUIC for sending, and what the context of a request hears in which round of its loop.
-/

namespace AsterNet

namespace Http3

namespace Drive

/-- What the event loop watches a socket for, and what it reports: `kReadable` and `kWritable`. -/
structure Readiness where
  readable : Bool
  writable : Bool
  deriving DecidableEq, Repr

/-- `RequestContext` with its socket. -/
structure Running where
  ctx : RequestContext
  sockFd : ℕ
  generation : ℕ
  cleanupStarted : Bool := false
  waitingWritable : Bool := false
  deriving DecidableEq, Repr

/-- Where the engine is. -/
inductive Control
  /-- No request runs. -/
  | idle
  /-- In `xqc_h3_connect`. -/
  | connecting
  /-- Before the condition of the loop. -/
  | looping
  /-- In `poll_once`, between two callbacks. -/
  | polling
  /-- In `xqc_conn_continue_send`; whether the socket is readable too. -/
  | continuing (readable : Bool)
  /-- Before `recvfrom`; whether a packet has been received. -/
  | receiving (any : Bool)
  /-- In `xqc_engine_packet_process`. -/
  | processing
  /-- In `xqc_engine_finish_recv`. -/
  | finishing
  /-- In `xqc_engine_main_logic`. -/
  | mainLogic
  /-- In `xqc_engine_destroy`. -/
  | destroying
  /-- After `~QuicEngine`. -/
  | gone
  deriving DecidableEq, Repr

/-- XQUIC has been called and may call back. -/
def Control.inXquic : Control → Bool
  | .connecting | .continuing _ | .processing | .finishing | .mainLogic | .destroying => true
  | _ => false

/-- The calls of XQUIC that are made on an engine. -/
inductive Call
  | connect
  | requestCreate
  | continueSend
  | packetProcess
  | finishRecv
  /-- The timer has fired that this generation has set. -/
  | mainLogic (armedBy : ℕ)
  | getStats
  deriving DecidableEq, Repr

/-- What happened. -/
inductive Event
  | refused (result : Result)
  | began (generation : ℕ) (req : Request)
  /-- `xqc_h3_connect` has failed. -/
  | unconnected (generation : ℕ)
  /-- The loop goes round, into `poll_once`. -/
  | polling (generation : ℕ)
  /-- The context of the request hears of this. -/
  | heard (generation : ℕ) (event : Http3.Event)
  | answered (generation : ℕ) (reply : Reply)
  | opened (fd : ℕ)
  /-- A datagram was sent or received, or could not be. -/
  | io (fd : ℕ)
  /-- XQUIC was told that the socket cannot take a datagram now. -/
  | blocked (generation : ℕ)
  | closed (fd : ℕ)
  | created (engine : ℕ)
  | called (engine : ℕ) (generation : ℕ) (call : Call)
  | destroyed (engine : ℕ)
  /-- `xqc_h3_request_send_headers`. -/
  | headers (generation : ℕ) (headers : List Header) (fin : Bool)
  /-- `xqc_h3_request_send_body`, with what it was offered and its answer. -/
  | body (generation : ℕ) (offered : Bytes) (result : SendResult)
  deriving DecidableEq, Repr

/-- How a request comes to its socket. -/
inductive Opening
  /-- `xqc_engine_create` fails. -/
  | engineFailed
  /-- `xqc_h3_ctx_init` fails. -/
  | contextFailed
  | lookupFailed
  | socketFailed
  /-- `fcntl` fails. -/
  | setupFailed (fd : ℕ)
  | connectFailed (fd : ℕ)
  | ready (fd : ℕ)
  deriving DecidableEq, Repr

/-- What `recvfrom` does. -/
inductive Received
  | packet
  /-- A packet, the first one, when `getsockname` fails. -/
  | nameless
  /-- Nothing, or a signal. -/
  | nothing
  | wouldBlock
  | failed
  deriving DecidableEq, Repr

/-- What `send` does with a datagram. -/
inductive Sent
  | whole
  | wouldBlock
  | failed
  deriving DecidableEq, Repr

/-- What XQUIC may call back. -/
inductive Callback
  | writeSocket (sent : Sent)
  | setEventTimer
  | handshakeFinished (outcome : HandshakeOutcome)
  | writeNotify (results : List SendResult)
  | readNotify (notify : ReadNotify)
  | certRejected
  | connClose
  | closing (err : ℤ)
  | streamClose (streamErr : ℤ)
  deriving DecidableEq, Repr

/-- What may happen next. -/
inductive Act
  /-- `request` is called. -/
  | begin (req : Request) (opening : Opening)
  /-- `xqc_h3_connect` returns. -/
  | connected (ok : Bool)
  /-- The condition of the loop, and whether the time is up. -/
  | test (timeUp : Bool)
  /-- `poll_once` finds a socket ready. -/
  | ready (fd : ℕ) (events : Readiness)
  /-- `poll_once` finds the timer expired. -/
  | expired
  /-- `poll_once` returns. -/
  | polled
  | receive (received : Received)
  | callback (callback : Callback)
  /-- XQUIC returns, and whether it succeeded. -/
  | returned (ok : Bool)
  /-- `~QuicEngine`. -/
  | drop
  deriving DecidableEq, Repr

/-- `QuicEngine`.  `watched` is what its event loop watches, `timer` the generation whose callback is set
there, and `openFds` the sockets it has open. -/
structure Machine where
  engine : Option ℕ := none
  nextEngine : ℕ := 0
  openFds : List ℕ := []
  watched : ℕ → Option Readiness := fun _ => none
  timer : Option ℕ := none
  curReq : Option Running := none
  requestGeneration : ℕ := 0
  control : Control := .idle

/-! ### Sending -/

/-- The calls of `xqc_h3_request_send_body` that `send_pending_body` makes. -/
def bodyCalls (ctx : RequestContext) : List SendResult → List (Bytes × SendResult)
  | [] => []
  | result :: results =>
    if ctx.h3Request = false ∨ ctx.body.length ≤ ctx.requestBodySent then []
    else
      (ctx.body.drop ctx.requestBodySent, result) ::
        match result with
        | .again => []
        | .failed => []
        | .sent n =>
          if n = 0 ∨ ctx.body.length - ctx.requestBodySent < n then []
          else bodyCalls { ctx with requestBodySent := ctx.requestBodySent + n } results

/-- They as events. -/
def bodyEvents (generation : ℕ) (ctx : RequestContext) (results : List SendResult) : List Event :=
  (bodyCalls ctx results).map fun call => .body generation call.1 call.2

/-- What `h3_conn_handshake_finished_cb` hands to XQUIC. -/
def handshakeEvents (engine generation : ℕ) (ctx : RequestContext) (outcome : HandshakeOutcome) :
    List Event :=
  if ctx.h3Request then []
  else
    .called engine generation .requestCreate ::
      match outcome with
      | .createFailed => []
      | .sendHeadersFailed => [.headers generation (requestHeaders ctx) ctx.body.isEmpty]
      | .sent results =>
        .headers generation (requestHeaders ctx) ctx.body.isEmpty ::
          bodyEvents generation { ctx with h3Request := true } results

namespace Machine

variable (m : Machine)

/-- The request that runs, unless it is being cleaned up. -/
def active : Option Running :=
  m.curReq.filter fun r => !r.cleanupStarted

/-- What the context becomes. -/
def setCtx (r : Running) (ctx : RequestContext) : Machine :=
  { m with curReq := some { r with ctx := ctx } }

/-- The context hears of something. -/
def hear (r : Running) (event : Http3.Event) : Machine × List Event :=
  (m.setCtx r (handle r.ctx event), [.heard r.generation event])

/-- `failed.store(true)`. -/
def fail (r : Running) : Machine × List Event := m.hear r .socketFailed

/-- `mod_fd`: it changes what is watched, and nothing where the socket is not watched. -/
def modFd (fd : ℕ) (events : Readiness) : Machine :=
  { m with watched := Function.update m.watched fd ((m.watched fd).map fun _ => events) }

/-- `remove_fd`, `close` and `cur_req_.reset()`. -/
def release (r : Running) : Machine × List Event :=
  ({ m with
      openFds := m.openFds.erase r.sockFd
      watched := Function.update m.watched r.sockFd none
      curReq := none
      control := .idle }, [.closed r.sockFd])

/-! ### The start of a request -/

/-- `init_engine`: it keeps the engine that is there. -/
def initEngine : Machine × List Event :=
  match m.engine with
  | some _ => (m, [])
  | none =>
    ({ m with engine := some m.nextEngine, nextEngine := m.nextEngine + 1 }, [.created m.nextEngine])

/-- The socket is there: the context is set up, the socket is watched, and XQUIC connects. -/
def start (engine fd : ℕ) (req : Request) : Machine × List Event :=
  ({ m with
      openFds := fd :: m.openFds
      watched := Function.update m.watched fd (some ⟨true, false⟩)
      curReq := some { ctx := newContext req, sockFd := fd, generation := m.requestGeneration + 1 }
      requestGeneration := m.requestGeneration + 1
      control := .connecting },
    [.opened fd, .began (m.requestGeneration + 1) req,
      .called engine (m.requestGeneration + 1) .connect])

/-- `request` up to `xqc_h3_connect`.  The system hands out no descriptor that is open. -/
def begin (req : Request) : Opening → Option (Machine × List Event)
  | .engineFailed => if m.engine = none then some (m, [.refused .errInternal]) else none
  | .contextFailed =>
    if m.engine = none then
      some ({ m with nextEngine := m.nextEngine + 1 },
        [.created m.nextEngine, .destroyed m.nextEngine, .refused .errInternal])
    else none
  | .lookupFailed => some (m.initEngine.1, m.initEngine.2 ++ [.refused .errDns])
  | .socketFailed => some (m.initEngine.1, m.initEngine.2 ++ [.refused .errInternal])
  | .setupFailed fd =>
    if fd ∈ m.openFds then none
    else some (m.initEngine.1, m.initEngine.2 ++ [.opened fd, .closed fd, .refused .errInternal])
  | .connectFailed fd =>
    if fd ∈ m.openFds then none
    else some (m.initEngine.1, m.initEngine.2 ++ [.opened fd, .closed fd, .refused .errConnect])
  | .ready fd =>
    if fd ∈ m.openFds then none
    else
      let engine := m.engine.getD m.nextEngine
      some ((m.initEngine.1.start engine fd req).1, m.initEngine.2 ++ (m.initEngine.1.start engine fd req).2)

/-- `xqc_h3_connect` has failed: the socket is released, and `fail_early` answers. -/
def unconnected (r : Running) : Machine × List Event :=
  (m.release r).map id fun events =>
    .unconnected r.generation :: events ++ [.answered r.generation { errCode := .errConnect }]

/-! ### The event loop -/

/-- The end of the loop: the result is judged, and XQUIC is destroyed. -/
def finish (r : Running) (timedOut : Bool) : Machine × List Event :=
  let answer := Event.answered r.generation (judge timedOut r.ctx)
  match m.engine with
  | some engine =>
    ({ m with
        engine := none
        curReq := some { r with cleanupStarted := true }
        control := .destroying },
      [.called engine r.generation .getStats, answer, .destroyed engine])
  | none =>
    let (m, events) := m.release { r with cleanupStarted := true }
    (m, answer :: events)

/-- The condition of the loop. -/
def test (r : Running) (timeUp : Bool) : Machine × List Event :=
  if r.ctx.finished || r.ctx.failed then m.finish r false
  else if timeUp then m.finish r true
  else ({ m with control := .polling }, [.polling r.generation])

/-- The callback that `request` registers for its socket. -/
def ready (events : Readiness) : Machine × List Event :=
  match m.active, m.engine with
  | some r, some engine =>
    if events.writable then
      let m := { m with curReq := some { r with waitingWritable := false } }
      ({ m.modFd r.sockFd ⟨true, false⟩ with control := .continuing events.readable },
        [.called engine r.generation .continueSend])
    else if events.readable then ({ m with control := .receiving false }, [])
    else (m, [])
  | _, _ => (m, [])

/-- The callback that `set_event_timer_cb` schedules, when it was set by this generation. -/
def expired (armedBy : ℕ) : Machine × List Event :=
  let m := { m with timer := none }
  match m.active, m.engine with
  | some r, some engine =>
    if r.generation = armedBy then
      ({ m with control := .mainLogic }, [.called engine r.generation (.mainLogic armedBy)])
    else (m, [])
  | _, _ => (m, [])

/-- The end of the loop around `recvfrom`. -/
def received (any : Bool) : Machine × List Event :=
  match m.active, m.engine with
  | some r, some engine =>
    if any then ({ m with control := .finishing }, [.called engine r.generation .finishRecv])
    else ({ m with control := .polling }, [])
  | _, _ => ({ m with control := .polling }, [])

/-- One turn of the loop around `recvfrom`. -/
def receive (r : Running) (engine : ℕ) (any : Bool) : Received → Machine × List Event
  | .packet =>
    ({ m with control := .processing }, [.io r.sockFd, .called engine r.generation .packetProcess])
  | .nameless => ((m.fail r).1.received any).map id fun events => .io r.sockFd :: (m.fail r).2 ++ events
  | .nothing => (m, [.io r.sockFd])
  | .wouldBlock => (m.received any).map id fun events => .io r.sockFd :: events
  | .failed => ((m.fail r).1.received any).map id fun events => .io r.sockFd :: (m.fail r).2 ++ events

/-! ### The callbacks of XQUIC -/

/-- `write_socket_cb` of a request that is not being cleaned up. -/
def writeSocket (r : Running) : Sent → Machine × List Event
  | .whole => (m, [.io r.sockFd])
  | .failed => (m, [.io r.sockFd])
  | .wouldBlock =>
    if r.waitingWritable then (m, [.io r.sockFd, .blocked r.generation])
    else
      ({ m with curReq := some { r with waitingWritable := true } }.modFd r.sockFd ⟨true, true⟩,
        [.io r.sockFd, .blocked r.generation])

/-- A callback: all of them look at the context, all but the timer's and `cert_verify_cb` at
`cleanup_started`, and two at `engine_`. -/
def callback : Callback → Machine × List Event
  | .writeSocket sent => m.active.elim (m, []) fun r => m.writeSocket r sent
  | .setEventTimer => m.curReq.elim (m, []) fun r => ({ m with timer := some r.generation }, [])
  | .handshakeFinished outcome =>
    match m.active, m.engine with
    | some r, some engine =>
      (m.hear r (.handshake outcome)).map id fun heard =>
        heard ++ handshakeEvents engine r.generation r.ctx outcome
    | _, _ => (m, [])
  | .writeNotify results =>
    match m.active, m.engine with
    | some r, some _ =>
      (m.hear r (.writable results)).map id fun heard => heard ++ bodyEvents r.generation r.ctx results
    | _, _ => (m, [])
  | .readNotify notify => m.active.elim (m, []) fun r => m.hear r (.readable notify)
  | .certRejected => m.curReq.elim (m, []) fun r => m.hear r .certRejected
  | .connClose => m.active.elim (m, []) fun r => m.hear r .connClose
  | .closing err => m.active.elim (m, []) fun r => m.hear r (.closing err)
  | .streamClose streamErr => m.active.elim (m, []) fun r => m.hear r (.streamClose streamErr)

/-! ### The steps -/

/-- XQUIC returns from the call it is in. -/
def returned (r : Running) (ok : Bool) : Control → Option (Machine × List Event)
  | .continuing readable =>
    if ok then some ({ m with control := if readable then .receiving false else .polling }, [])
    else some ({ (m.fail r).1 with control := .polling }, (m.fail r).2)
  -- a packet that XQUIC does not take is logged
  | .processing => some ({ m with control := .receiving true }, [])
  | .finishing => some ({ m with control := .polling }, [])
  | .mainLogic => some ({ m with control := .polling }, [])
  | .destroying => some (m.release r)
  | _ => none

/-- One act, when it can happen. -/
def act : Act → Option (Machine × List Event)
  | .begin req opening => if m.control = .idle then m.begin req opening else none
  | .connected ok =>
    match m.control, m.curReq with
    | .connecting, some r =>
      if ok then some ({ m with control := .looping }, []) else some (m.unconnected r)
    | _, _ => none
  | .test timeUp =>
    match m.control, m.curReq with
    | .looping, some r => some (m.test r timeUp)
    | _, _ => none
  | .ready fd events =>
    if m.control = .polling ∧ m.watched fd ≠ none then some (m.ready events) else none
  | .expired =>
    match m.control, m.timer with
    | .polling, some armedBy => some (m.expired armedBy)
    | _, _ => none
  | .polled => if m.control = .polling then some ({ m with control := .looping }, []) else none
  | .receive received =>
    match m.control, m.curReq, m.engine with
    | .receiving any, some r, some engine => some (m.receive r engine any received)
    | _, _, _ => none
  | .callback callback => if m.control.inXquic then some (m.callback callback) else none
  | .returned ok => m.curReq.bind fun r => m.returned r ok m.control
  | .drop =>
    if m.control = .idle then
      some ({ m with engine := none, control := .gone }, m.engine.toList.map .destroyed)
    else none

end Machine

/-- An engine with what happened so far. -/
abbrev Trace := Machine × List Event

/-- One act, with what it adds to the history. -/
def next (s : Trace) (a : Act) : Option Trace :=
  (s.1.act a).map fun r => (r.1, s.2 ++ r.2)

/-- The steps of an engine. -/
def Steps (s : Trace) (a : Act) (s' : Trace) : Prop := next s a = some s'

end Drive

end Http3

end AsterNet
