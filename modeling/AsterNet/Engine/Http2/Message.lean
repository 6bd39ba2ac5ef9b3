import AsterNet.Engine.Http2.Engine

/-!
# Legal HTTP/2 responses

What a server may send on the stream of a request, and how nghttp2 reports it: any number of interim
header blocks, a final one, DATA frames and trailers, with END_STREAM on the last frame.  The first
header block has the category `response`, every later one the category `headers`.
-/

namespace AsterNet

namespace Http2

open ByteString

/-- A HEADERS frame with its fields, or a DATA frame with the chunks its payload is reported in. -/
inductive Part
  | headerBlock (fields : List Header)
  | data (chunks : List Bytes)
  deriving DecidableEq, Repr

namespace Part

/-- The calls for one frame: its fields or chunks, then the frame itself. -/
def callbacks (streamId : ℤ) (cat : HeadersCategory) (endStream : Bool) : Part → List Callback
  | headerBlock fields =>
    fields.map (fun h => .header ⟨.headers, streamId, endStream, cat⟩ h.name h.value) ++
      [.frameRecv ⟨.headers, streamId, endStream, cat⟩]
  | data chunks =>
    chunks.map (.dataChunk streamId) ++ [.frameRecv ⟨.data, streamId, endStream, cat⟩]

/-- The bytes of the names and values. -/
def headerBytes : Part → ℕ
  | headerBlock fields => (fields.map fun h => h.name.length + h.value.length).sum
  | data _ => 0

/-- The payload. -/
def content : Part → Bytes
  | headerBlock _ => []
  | data chunks => chunks.flatten

end Part

/-- The calls for the frames of a stream, the first with this category.  The last frame ends the
stream. -/
def partsCallbacks (streamId : ℤ) (cat : HeadersCategory) : List Part → List Callback
  | [] => []
  | part :: parts =>
    part.callbacks streamId cat parts.isEmpty ++ partsCallbacks streamId .headers parts

/-- The header block of a status. -/
def statusBlock (status : ℕ) (fields : List Header) : Part :=
  .headerBlock (⟨ascii ":status", decimal status⟩ :: fields)

/-- A legal response to a request with this method. -/
structure Message (method : Bytes) where
  interim : List (ℕ × List Header)
  status : ℕ
  fields : List Header
  data : List (List Bytes)
  trailers : Option (List Header)
  interim_status : ∀ block ∈ interim, 100 ≤ block.1 ∧ block.1 < 200
  final_status : 200 ≤ status ∧ status < 600
  /-- `:status` is the only pseudo-header. -/
  regular_fields : ∀ h ∈ interim.flatMap Prod.snd ++ fields ++ trailers.getD [], h.name.head? ≠ some 58
  no_body : method = ascii "HEAD" ∨ status = 204 ∨ status = 304 → data.flatten.flatten = []

namespace Message

variable {method : Bytes} (m : Message method)

/-- The body. -/
def body : Bytes := m.data.flatten.flatten

/-- What follows the final header block. -/
def tail : List Part := m.data.map .data ++ m.trailers.toList.map .headerBlock

/-- All frames. -/
def parts : List Part :=
  m.interim.map (fun block => statusBlock block.1 block.2) ++ statusBlock m.status m.fields :: m.tail

/-- The header bytes in total. -/
def headerBytes : ℕ := (m.parts.map Part.headerBytes).sum

end Message

/-! ### Delivery -/

/-- The calls of a turn. -/
def Turn.callbacks : Turn → List Callback
  | .received callbacks _ => callbacks
  | _ => []

/-- A call is about this stream and not only noted: stream frames of other types have no effect. -/
def concerns (streamId : ℤ) : Callback → Bool
  | .header frame _ _ => frame.streamId = streamId
  | .dataChunk id _ => id = streamId
  | .frameRecv frame => frame.streamId = streamId && (frame.type = .data || frame.type = .headers)
  | .streamClose id _ => id = streamId

/-- The turns deliver these frames on the stream, and perhaps its closing without error: in any
batches, with idle turns, and with any calls for other streams and the connection in between. -/
structure Delivers (streamId : ℤ) (parts : List Part) (turns : List Turn) : Prop where
  undisturbed : ∀ turn ∈ turns, turn = .idle ∨ ∃ callbacks, turn = .received callbacks
  callbacks : ∃ closing, (closing = [] ∨ closing = [Callback.streamClose streamId 0]) ∧
    (turns.flatMap Turn.callbacks).filter (concerns streamId) =
      partsCallbacks streamId .response parts ++ closing

end Http2

end AsterNet
