import AsterNet.Engine.Engine
import AsterNet.Lib.Numeral

/-!
# The request context and the callbacks of the HTTP/2 engine

`H2Ctx`, the context of one request, and the five nghttp2 callbacks that read and write it.  A
callback finds the context through the user data of the session, whichever stream it is called for.
-/

namespace AsterNet

namespace Http2

open ByteString

/-- The `type` of a frame header, as far as the callbacks look at it. -/
inductive FrameType
  | data
  | headers
  | goaway
  | other
  deriving DecidableEq, Repr

/-- `nghttp2_headers_category`. -/
inductive HeadersCategory
  | request
  | response
  | pushResponse
  | headers
  deriving DecidableEq, Repr

/-- What the callbacks read of a frame. -/
structure Frame where
  type : FrameType
  streamId : ℤ
  endStream : Bool := false
  cat : HeadersCategory := .headers
  deriving DecidableEq, Repr

/-- What a callback returns: `0` or `NGHTTP2_ERR_TEMPORAL_CALLBACK_FAILURE`. -/
inductive CallbackResult
  | ok
  | temporalFailure
  deriving DecidableEq, Repr

/-- `H2Ctx`, without the TLS connection, the undelivered bytes and the deadline. -/
structure H2Ctx where
  reqBody : Bytes := []
  reqMethod : Bytes := []
  reqBodySent : ℕ := 0
  respBody : Bytes := []
  httpStatus : ℤ := 0
  gotStatus : Bool := false
  streamClosed : Bool := false
  gotEndStream : Bool := false
  responseBodyAllowed : Bool := true
  forbiddenBodyReceived : Bool := false
  goawayReceived : Bool := false
  streamId : ℤ := 0
  /-- `NGHTTP2_NO_ERROR` is `0`. -/
  streamError : ℕ := 0
  responseHeaderBytes : ℕ := 0
  maxResponseBodyBytes : ℕ := 16 * 1024 * 1024
  bodyLimitExceeded : Bool := false
  deriving DecidableEq, Repr

/-- The context `request` sets up, with the stream of the request. -/
def newContext (req : Request) (streamId : ℤ) : H2Ctx where
  reqBody := req.body
  reqMethod := req.method
  responseBodyAllowed := req.method ≠ ascii "HEAD"
  streamId := streamId
  maxResponseBodyBytes := req.maxResponseBodyBytes.toNat

/-! ### The callbacks -/

/-- `data_read_callback` for a buffer of `length` bytes: what is written to it, whether the end of the
data is flagged, and the context.  The stream id and the data source are not looked at. -/
def dataReadCallback (ctx : H2Ctx) (length : ℕ) : Bytes × Bool × H2Ctx :=
  let remain := ctx.reqBody.length - ctx.reqBodySent
  let n := if remain < length then remain else length
  let ctx' := if 0 < n then { ctx with reqBodySent := ctx.reqBodySent + n } else ctx
  ((ctx.reqBody.drop ctx.reqBodySent).take n, ctx.reqBody.length ≤ ctx'.reqBodySent, ctx')

/-- `:status` as it is read: at most seven bytes of it are copied. -/
def statusOf (value : Bytes) : ℤ := atoi (cStr (value.take 7))

/-- `on_header_callback`. -/
def onHeaderCallback (ctx : H2Ctx) (frame : Frame) (name value : Bytes) : CallbackResult × H2Ctx :=
  if frame.streamId ≠ ctx.streamId then (.ok, ctx)
  else
    let ctx := { ctx with responseHeaderBytes := ctx.responseHeaderBytes + name.length + value.length }
    if 64 * 1024 < ctx.responseHeaderBytes then (.temporalFailure, ctx)
    else if frame.type = .headers ∧ frame.cat = .response ∧ name = ascii ":status" then
      let status := statusOf value
      if 100 ≤ status ∧ status < 200 then
        (.ok, { ctx with httpStatus := status, responseBodyAllowed := false })
      else
        (.ok, { ctx with
          httpStatus := status
          gotStatus := true
          responseBodyAllowed := ctx.reqMethod ≠ ascii "HEAD" && status ≠ 204 && status ≠ 304 })
    else (.ok, ctx)

/-- `on_data_chunk_recv_callback`. -/
def onDataChunkRecvCallback (ctx : H2Ctx) (streamId : ℤ) (data : Bytes) : CallbackResult × H2Ctx :=
  if streamId ≠ ctx.streamId then (.ok, ctx)
  else if ctx.responseBodyAllowed = false ∧ 0 < data.length then
    (.temporalFailure, { ctx with forbiddenBodyReceived := true })
  else if ctx.maxResponseBodyBytes < data.length ∨
      ctx.maxResponseBodyBytes - data.length < ctx.respBody.length then
    (.temporalFailure, { ctx with bodyLimitExceeded := true })
  else (.ok, { ctx with respBody := ctx.respBody ++ data })

/-- `on_stream_close_callback`. -/
def onStreamCloseCallback (ctx : H2Ctx) (streamId : ℤ) (errorCode : ℕ) : H2Ctx :=
  if streamId ≠ ctx.streamId then ctx
  else { ctx with streamError := errorCode, streamClosed := true }

/-- `on_frame_recv_callback`. -/
def onFrameRecvCallback (ctx : H2Ctx) (frame : Frame) : H2Ctx :=
  if frame.type = .goaway then { ctx with goawayReceived := true }
  else if frame.streamId ≠ ctx.streamId then ctx
  else if (frame.type = .data ∨ frame.type = .headers) ∧ frame.endStream = true then
    { ctx with gotEndStream := true, streamError := 0, streamClosed := true }
  else ctx

/-! ### Delivery -/

/-- A call nghttp2 makes while it processes received bytes. -/
inductive Callback
  | header (frame : Frame) (name value : Bytes)
  | dataChunk (streamId : ℤ) (data : Bytes)
  | frameRecv (frame : Frame)
  | streamClose (streamId : ℤ) (errorCode : ℕ)
  deriving DecidableEq, Repr

/-- One call, and whether its return value is fatal for `nghttp2_session_mem_recv`: that of a data
callback is when it is not zero, that of a header callback only resets the stream. -/
def deliver (ctx : H2Ctx) : Callback → Bool × H2Ctx
  | .header frame name value => (false, (onHeaderCallback ctx frame name value).2)
  | .dataChunk streamId data =>
    let (result, ctx') := onDataChunkRecvCallback ctx streamId data
    (result ≠ .ok, ctx')
  | .frameRecv frame => (false, onFrameRecvCallback ctx frame)
  | .streamClose streamId errorCode => (false, onStreamCloseCallback ctx streamId errorCode)

/-- `nghttp2_session_mem_recv` over bytes for which it makes these calls: it goes on until one is
fatal. -/
def memRecv (ctx : H2Ctx) : List Callback → Bool × H2Ctx
  | [] => (false, ctx)
  | callback :: callbacks =>
    match deliver ctx callback with
    | (true, ctx') => (true, ctx')
    | (false, ctx') => memRecv ctx' callbacks

end Http2

end AsterNet
