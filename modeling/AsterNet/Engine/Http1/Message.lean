import AsterNet.Engine.Engine
import AsterNet.Lib.Numeral

/-!
# Well-formed HTTP/1.1 responses

What a server may send, independently of how the engine reads it: header sections, the three
framings, and a whole response with its interim responses.  The conditions of the grammar are fields
of the structures, so a value of `Message` is a well-formed response.
-/

namespace AsterNet

namespace Http1

open ByteString

/-- Text without line ends. -/
structure Text where
  bytes : Bytes
  no_cr : (13 : UInt8) ∉ bytes
  no_lf : (10 : UInt8) ∉ bytes

/-- A header field `name: value`. -/
structure Field where
  name : Text
  value : Text
  no_colon : (58 : UInt8) ∉ name.bytes

namespace Field

variable (f : Field)

/-- The line of the field. -/
def text : Bytes := f.name.bytes ++ ascii ": " ++ f.value.bytes

/-- The field is called so, in any letter case. -/
def Named (name : String) : Prop := lower f.name.bytes = ascii name

instance (name : String) : Decidable (f.Named name) := inferInstanceAs (Decidable (_ = _))

/-- A `Connection` field whose value contains `close`, in any letter case. -/
def closes : Bool := f.Named "connection" && contains (ascii "close") (lower f.value.bytes)

end Field

/-- A header section: status line, fields, empty line. -/
structure Section where
  status : ℕ
  reason : Text
  fields : List Field
  three_digits : 100 ≤ status ∧ status < 1000

namespace Section

variable (σ : Section)

/-- `HTTP/1.1 SP DDD SP reason`. -/
def statusLine : Bytes :=
  ascii "HTTP/1.1 " ++ decimal σ.status ++ ascii " " ++ σ.reason.bytes

/-- The section with its line ends. -/
def bytes : Bytes := (σ.statusLine :: σ.fields.map Field.text).flatMap (· ++ crlf) ++ crlf

end Section

/-! ### The chunked coding -/

/-- The line before a chunk of `n` bytes: hexadecimal digits, leading zeros allowed, and any extensions
behind a semicolon. -/
structure SizeLine (n : ℕ) where
  digits : Bytes
  extension : Text
  digits_ne : digits ≠ []
  digits_all : AllDigits 16 digits
  digits_value : digitsValue 16 digits = n
  extension_head : ∀ c ∈ extension.bytes.head?, c = 59

/-- The text of the line. -/
def SizeLine.text {n : ℕ} (l : SizeLine n) : Bytes := l.digits ++ l.extension.bytes

/-- A nonempty chunk. -/
structure Chunk where
  data : Bytes
  data_ne : data ≠ []
  size : SizeLine data.length

/-- A trailer line. -/
structure Trailer where
  text : Text
  text_ne : text.bytes ≠ []

/-- A body in the chunked coding. -/
structure ChunkedBody where
  chunks : List Chunk
  last : SizeLine 0
  trailers : List Trailer

namespace ChunkedBody

variable (c : ChunkedBody)

/-- The body. -/
def body : Bytes := c.chunks.flatMap Chunk.data

/-- One chunk on the wire. -/
def chunkBytes (chunk : Chunk) : Bytes := chunk.size.text ++ crlf ++ (chunk.data ++ crlf)

/-- The coding. -/
def bytes : Bytes :=
  c.chunks.flatMap chunkBytes ++ (c.last.text ++ crlf ++
    (c.trailers.flatMap (fun t => t.text.bytes ++ crlf) ++ crlf))

end ChunkedBody

/-! ### Framing -/

/-- How the end of the body is announced. -/
inductive Framing
  | contentLength (n : ℕ)
  | chunked
  | close
  deriving DecidableEq, Repr

namespace Framing

/-- The framing field. -/
def Announces : Framing → Field → Prop
  | contentLength n, f => f.Named "content-length" ∧ f.value.bytes = decimal n
  | chunked, f => f.Named "transfer-encoding" ∧ lower f.value.bytes = ascii "chunked"
  | close, _ => False

/-- A field that has nothing to do with framing. -/
def Neutral (f : Field) : Prop := ¬ f.Named "content-length" ∧ ¬ f.Named "transfer-encoding"

/-- The fields announce the framing, once, or announce none. -/
def AnnouncedBy (framing : Framing) (fields : List Field) : Prop :=
  (framing = close ∧ ∀ f ∈ fields, Neutral f) ∨
  ∃ before f after, fields = before ++ f :: after ∧ framing.Announces f ∧
    (∀ g ∈ before, Neutral g) ∧ ∀ g ∈ after, Neutral g

/-- What follows the header section for a body in this framing.  A response without body has nothing
there, whatever its fields announce. -/
def Frames (framing : Framing) (noBody : Bool) (body payload : Bytes) : Prop :=
  if noBody then body = [] ∧ payload = [] ∧ ∀ n, framing = contentLength n → n ≤ ullongMax
  else match framing with
    | contentLength n => n = body.length ∧ payload = body
    | chunked => ∃ c : ChunkedBody, c.body = body ∧ c.bytes = payload
    | close => payload = body

end Framing

/-! ### Responses -/

/-- The answer to a request of this method with this status has no body. -/
def NoBody (method : Bytes) (status : ℕ) : Bool :=
  method = ascii "HEAD" || status = 204 || status = 304

/-- A well-formed response to a request of the given method: interim responses, the final section, and
the body in its framing. -/
structure Message (method : Bytes) where
  interim : List Section
  final : Section
  framing : Framing
  body : Bytes
  payload : Bytes
  interim_status : ∀ σ ∈ interim, σ.status < 200
  final_status : 200 ≤ final.status ∧ final.status ≤ 599
  announced : framing.AnnouncedBy final.fields
  frames : framing.Frames (NoBody method final.status) body payload

namespace Message

variable {method : Bytes} (m : Message method)

/-- The sections in order. -/
def sections : List Section := m.interim ++ [m.final]

/-- The header sections on the wire. -/
def headerBytes : Bytes := m.sections.flatMap Section.bytes

/-- The response on the wire. -/
def bytes : Bytes := m.headerBytes ++ m.payload

/-- The connection can carry another response behind this one. -/
def persists : Bool :=
  decide (m.framing ≠ .close) && !m.final.fields.any Field.closes && !NoBody method m.final.status

end Message

end Http1

end AsterNet
