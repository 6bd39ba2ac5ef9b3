import AsterNet.Lib.ByteString
import Mathlib.Algebra.Order.Ring.Rat

/-!
# Traceroute (`traceroute.cpp`)

`trace_route` over everything the network and the kernel decide: `Env` says how the socket is set up and,
for each probe, what `send` returns and what every turn of its wait takes from the error queue of the one
socket.  Nothing ties a turn to the probe that is waiting: the queue keeps what arrives, so an error that
comes late is read by whichever probe waits next.

`cause` and `answers` are not in the source: the probe that an ICMP error quotes, and the errors a hop
took as its answers.  The times are those of `monotonic_seconds()`, in seconds, and how long `poll` waits
is left out, as only the clock readings decide.
-/

namespace AsterNet

open ByteString

/-- `sdt::TracerouteConfig`. -/
structure TracerouteConfig where
  maxHops : ℤ := 30
  probesPerHop : ℤ := 3
  probeTimeoutMs : ℤ := 2000
  deriving DecidableEq, Repr

namespace Traceroute

/-- The `probe`-th probe of the hop with this TTL. -/
structure ProbeId where
  ttl : ℕ
  probe : ℕ
  deriving DecidableEq, Repr

/-- `sock_extended_err`, with the text of `SO_EE_OFFENDER` and the probe that caused it. -/
structure ExtendedErr where
  /-- `ee_origin == SO_EE_ORIGIN_ICMP`. -/
  isIcmp : Bool := true
  type : ℕ
  code : ℕ := 0
  offender : Bytes
  cause : ProbeId
  deriving DecidableEq, Repr

/-- What a turn of the wait meets: no event on the socket, an empty queue, a failing `recvmsg`, or an
entry of the queue, with its `IP_RECVERR` part if there is one. -/
inductive Event
  | silent
  | again
  | failed
  | entry (ee : Option ExtendedErr)
  deriving DecidableEq, Repr

/-- A turn of the wait: the clock against the deadline, and then the socket. -/
structure Turn where
  now : ℚ
  event : Event
  deriving DecidableEq, Repr

/-- What `send` returns. -/
inductive Sent
  | sent
  | noRoute
  | failed
  deriving DecidableEq, Repr

/-- What happens to a probe: its wait is over when the turns are, the deadline having passed. -/
structure Probe where
  sendTime : ℚ
  sent : Sent
  turns : List Turn
  /-- The clock where the round trip time is taken. -/
  readTime : ℚ
  deriving DecidableEq, Repr

/-- What `connect` returns. -/
inductive Connected
  | connected
  | noRoute
  | failed
  deriving DecidableEq, Repr

/-- What the network and the kernel decide. -/
structure Env where
  /-- `getaddrinfo`. -/
  resolved : Option Bytes
  socket : Bool
  /-- `setsockopt` with `IP_RECVERR`. -/
  recvErr : Bool
  connected : Connected
  /-- `setsockopt` with `IP_TTL`. -/
  ttlSet : ℕ → Bool
  probe : ProbeId → Probe

/-- An error taken as the answer to a probe. -/
structure Credit where
  probe : ProbeId
  error : ExtendedErr
  deriving DecidableEq, Repr

end Traceroute

open Traceroute

/-- `sdt::TracerouteHop`, with the errors it takes as answers. -/
structure TracerouteHop where
  ttl : ℕ := 0
  addr : Bytes := []
  rttMs : List ℚ := []
  loss : ℕ := 0
  reached : Bool := false
  answers : List Credit := []
  deriving DecidableEq, Repr

/-- The values of `TracerouteResult::status`. -/
inductive TracerouteStatus
  | reached
  | completed
  | error (text : String)
  deriving DecidableEq, Repr

/-- `sdt::TracerouteResult`. -/
structure TracerouteResult where
  host : Bytes
  port : ℕ
  resolvedIp : Bytes := []
  ipVersion : ℕ := 4
  maxHops : ℤ := 0
  probesPerHop : ℤ := 0
  status : TracerouteStatus
  hops : List TracerouteHop := []
  deriving DecidableEq, Repr

namespace Traceroute

/-- `ICMP_DEST_UNREACH`. -/
def destUnreach : ℕ := 3

/-- `ICMP_TIME_EXCEEDED`. -/
def timeExceeded : ℕ := 11

/-- `ICMP_UNREACH_PORT`. -/
def unreachPort : ℕ := 3

/-- The error ends the whole trace. -/
def ExtendedErr.isDone (ee : ExtendedErr) : Bool :=
  ee.type == destUnreach

/-- The error is that of the destination itself. -/
def ExtendedErr.isReached (ee : ExtendedErr) : Bool :=
  ee.isDone && ee.code == unreachPort

/-- The error ends the wait. -/
def ExtendedErr.isAnswer (ee : ExtendedErr) : Bool :=
  ee.isIcmp && (ee.type == timeExceeded || ee.isDone)

/-- The timeout of one probe. -/
def probeTimeoutMs (config : TracerouteConfig) : ℤ :=
  if config.probeTimeoutMs ≤ 0 ∨ 60000 < config.probeTimeoutMs then 2000 else config.probeTimeoutMs

/-- The deadline of a probe. -/
def deadline (config : TracerouteConfig) (p : Probe) : ℚ :=
  p.sendTime + probeTimeoutMs config / 1000

/-- The wait of one probe. -/
def waitReply (deadline : ℚ) : List Turn → Option ExtendedErr
  | [] => none
  | turn :: turns =>
    if deadline - turn.now ≤ 0 then none
    else
      match turn.event with
      | .silent => none
      | .failed => none
      | .again => waitReply deadline turns
      | .entry none => waitReply deadline turns
      | .entry (some ee) => if ee.isAnswer then some ee else waitReply deadline turns

/-- The locals of the two loops.  `noRoute` is the early return. -/
structure State where
  hop : TracerouteHop
  reached : Bool := false
  done : Bool := false
  noRoute : Bool := false
  deriving DecidableEq, Repr

/-- The loops go no further. -/
def State.stopped (st : State) : Bool :=
  st.reached || st.done || st.noRoute

/-- A probe without an answer. -/
def lose (hop : TracerouteHop) : TracerouteHop :=
  { hop with rttMs := hop.rttMs ++ [-1], loss := hop.loss + 1 }

/-- A probe with an answer. -/
def reply (hop : TracerouteHop) (id : ProbeId) (p : Probe) (ee : ExtendedErr) :
    TracerouteHop :=
  { hop with
    addr := if hop.addr = [] then ee.offender else hop.addr
    reached := hop.reached || ee.isReached
    rttMs := hop.rttMs ++ [(p.readTime - p.sendTime) * 1000]
    answers := hop.answers ++ [⟨id, ee⟩] }

variable (config : TracerouteConfig) (env : Env)

/-- One probe. -/
def probeOnce (probe : ℕ) (st : State) : State :=
  let id : ProbeId := ⟨st.hop.ttl, probe⟩
  let p := env.probe id
  match p.sent with
  | .noRoute => { st with hop := lose st.hop, noRoute := true }
  | .failed => { st with hop := lose st.hop }
  | .sent =>
    match waitReply (deadline config p) p.turns with
    | none => { st with hop := lose st.hop }
    | some ee =>
      { st with
        hop := reply st.hop id p ee
        reached := st.reached || ee.isReached
        done := st.done || ee.isDone }

/-- The probes of one hop, from the `probe`-th one, `n` at most. -/
def probeLoop : ℕ → ℕ → State → State
  | 0, _, st => st
  | n + 1, probe, st =>
    if st.stopped then st else probeLoop n (probe + 1) (probeOnce config env probe st)

/-- The hops from `ttl`, `n` at most, with the state the last one has left. -/
def hopLoop : ℕ → ℕ → List TracerouteHop → State → List TracerouteHop × State
  | 0, _, hops, st => (hops, st)
  | n + 1, ttl, hops, st =>
    if st.stopped then (hops, st)
    else if !env.ttlSet ttl then (hops, st)
    else
      let st := probeLoop config env config.probesPerHop.toNat 0 { st with hop := { ttl := ttl } }
      hopLoop n (ttl + 1) (hops ++ [st.hop]) st

/-- The status at the end of the loops. -/
def statusOf (st : State) : TracerouteStatus :=
  if st.noRoute then .error "no route to host" else if st.reached then .reached else .completed

/-- `trace_route_impl`. -/
def traceRouteImpl (host : Bytes) (port : ℕ) : TracerouteResult :=
  let result : TracerouteResult :=
    { host := host, port := port, maxHops := config.maxHops, probesPerHop := config.probesPerHop
      status := .completed }
  match env.resolved with
  | none => { result with status := .error "dns resolve failed" }
  | some ip =>
    let result := { result with resolvedIp := ip }
    if !env.socket then { result with status := .error "socket create failed" }
    else if !env.recvErr then { result with status := .error "IP_RECVERR unsupported" }
    else
      match env.connected with
      | .noRoute => { result with status := .error "no route to host" }
      | .failed => { result with status := .error "connect failed" }
      | .connected =>
        let (hops, st) := hopLoop config env config.maxHops.toNat 1 [] { hop := {} }
        { result with status := statusOf st, hops := hops }

/-- `trace_route`. -/
def traceRoute (host : Bytes) (port : ℕ) : TracerouteResult :=
  if host = [] ∨ port = 0 then { host := host, port := port, status := .error "invalid argument" }
  else traceRouteImpl config env host port

end Traceroute

end AsterNet
