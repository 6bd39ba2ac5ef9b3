import AsterNet.Engine.Http2.Engine
import AsterNet.Lib.Transition

/-!
# Requests on one HTTP/2 connection

A connection outlives its requests: what nghttp2 keeps for it are the streams that were submitted with
a data provider, and the user data its callbacks are called with, which is the context of the request
under way.  `act` is what one request does to them, and what nghttp2 may do while it runs.
-/

namespace AsterNet

namespace Http2

open ByteString

/-- A stream submitted with `data_read_callback`, and what the callback returned for it. -/
structure Stream where
  id : ℤ
  /-- The body of the request that submitted the stream. -/
  body : Bytes
  sent : Bytes := []
  eof : Bool := false
  closed : Bool := false
  deriving DecidableEq, Repr

namespace Stream

/-- nghttp2 may still read the body of the stream. -/
def isRead (stream : Stream) : Bool := !stream.eof && !stream.closed

/-- A call of `data_read_callback` for the stream returned `bytes`. -/
def read (stream : Stream) (bytes : Bytes) (eof : Bool) : Stream :=
  { stream with sent := stream.sent ++ bytes, eof := stream.eof || eof }

/-- `callbacks` were made. -/
def afterCallbacks (stream : Stream) (callbacks : List Callback) : Stream :=
  { stream with closed := stream.closed || callbacks.any fun
      | .streamClose id _ => id = stream.id
      | _ => false }

end Stream

/-- A connection.  `ctx` is the user data of the session. -/
structure Session where
  ctx : Option H2Ctx := none
  streams : List Stream := []
  nextStreamId : ℤ := 1
  deriving DecidableEq, Repr

/-- The stream of a request, when it is submitted with a data provider. -/
def submitted (streamId : ℤ) (req : Request) : List Stream :=
  if req.body = [] then [] else [{ id := streamId, body := req.body }]

theorem mem_submitted {streamId : ℤ} {req : Request} {stream : Stream} :
    stream ∈ submitted streamId req ↔ req.body ≠ [] ∧ stream = { id := streamId, body := req.body } := by
  rw [submitted]
  split_ifs with hbody <;> simp [hbody]

/-- What happens on a connection. -/
inductive Act
  /-- `request` binds its context and submits. -/
  | start (req : Request)
  /-- `nghttp2_session_send` reads the body of a stream into a buffer of this length. -/
  | dataRead (streamId : ℤ) (length : ℕ)
  /-- `nghttp2_session_mem_recv` makes these calls. -/
  | receive (callbacks : List Callback)
  /-- `request` returns OK and keeps the connection. -/
  | finish
  deriving DecidableEq, Repr

/-- One act, when it can happen on a connection that stays open. -/
def act (s : Session) : Act → Option Session
  | .start req =>
    if s.ctx = none ∧ (customHeaders req.headers).isSome then
      some { ctx := some (newContext req s.nextStreamId)
             streams := s.streams ++ submitted s.nextStreamId req
             nextStreamId := s.nextStreamId + 2 }
    else none
  | .dataRead streamId length =>
    match s.ctx with
    | none => none
    | some ctx =>
      if ctx.streamClosed = false ∧
          s.streams.any (fun stream => stream.id = streamId && stream.isRead) then
        let (bytes, eof, ctx') := dataReadCallback ctx length
        some { s with
          ctx := some ctx'
          streams := s.streams.map fun stream =>
            if stream.id = streamId then stream.read bytes eof else stream }
      else none
  | .receive callbacks =>
    match s.ctx with
    | none => none
    | some ctx =>
      if ctx.streamClosed then none
      else
        match memRecv ctx callbacks with
        | (true, _) => none
        | (false, ctx') =>
          some { s with
            ctx := some ctx'
            streams := s.streams.map fun stream => stream.afterCallbacks callbacks }
  | .finish =>
    match s.ctx with
    | none => none
    | some ctx =>
      if ctx.streamClosed && keepsConnection (judge .ok ctx) ctx then some { s with ctx := none }
      else none

/-- The steps of a connection. -/
def Steps (s : Session) (a : Act) (t : Session) : Prop := act s a = some t

instance (s : Session) (a : Act) (t : Session) : Decidable (Steps s a t) :=
  inferInstanceAs (Decidable (_ = _))

variable {s t : Session}

theorem steps_start {req : Request} (hs : Steps s (.start req) t) :
    s.ctx = none ∧ (customHeaders req.headers).isSome ∧
      t = { ctx := some (newContext req s.nextStreamId)
            streams := s.streams ++ submitted s.nextStreamId req
            nextStreamId := s.nextStreamId + 2 } := by
  rw [Steps, act] at hs
  split_ifs at hs with hstart
  exact ⟨hstart.1, hstart.2, (Option.some.inj hs).symm⟩

theorem steps_dataRead {streamId : ℤ} {length : ℕ} (hs : Steps s (.dataRead streamId length) t) :
    ∃ ctx, s.ctx = some ctx ∧ ctx.streamClosed = false ∧
      (∃ stream ∈ s.streams, stream.id = streamId ∧ stream.isRead = true) ∧
      t = { s with
        ctx := some (dataReadCallback ctx length).2.2
        streams := s.streams.map fun stream =>
          if stream.id = streamId then
            stream.read (dataReadCallback ctx length).1 (dataReadCallback ctx length).2.1
          else stream } := by
  rw [Steps, act] at hs
  rcases hctx : s.ctx with - | ctx
  · rw [hctx] at hs
    cases hs
  · rw [hctx] at hs
    dsimp only at hs
    split_ifs at hs with hguard
    exact ⟨ctx, rfl, hguard.1, by simpa using hguard.2, (Option.some.inj hs).symm⟩

theorem steps_receive {callbacks : List Callback} (hs : Steps s (.receive callbacks) t) :
    ∃ ctx ctx', s.ctx = some ctx ∧ ctx.streamClosed = false ∧ memRecv ctx callbacks = (false, ctx') ∧
      t = { s with
        ctx := some ctx'
        streams := s.streams.map fun stream => stream.afterCallbacks callbacks } := by
  rw [Steps, act] at hs
  rcases hctx : s.ctx with - | ctx
  · rw [hctx] at hs
    cases hs
  · rw [hctx] at hs
    dsimp only at hs
    split_ifs at hs with hclosed
    rcases hrecv : memRecv ctx callbacks with ⟨_ | _, ctx'⟩
    · rw [hrecv] at hs
      exact ⟨ctx, ctx', rfl, Bool.eq_false_iff.mpr hclosed, hrecv, (Option.some.inj hs).symm⟩
    · rw [hrecv] at hs
      cases hs

theorem steps_finish (hs : Steps s .finish t) :
    ∃ ctx, s.ctx = some ctx ∧ ctx.streamClosed = true ∧ keepsConnection (judge .ok ctx) ctx = true ∧
      t = { s with ctx := none } := by
  rw [Steps, act] at hs
  rcases hctx : s.ctx with - | ctx
  · rw [hctx] at hs
    cases hs
  · rw [hctx] at hs
    dsimp only at hs
    split_ifs at hs with hkeep
    rw [Bool.and_eq_true] at hkeep
    exact ⟨ctx, rfl, hkeep.1, hkeep.2, (Option.some.inj hs).symm⟩

end Http2

end AsterNet
