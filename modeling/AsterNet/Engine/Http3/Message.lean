import AsterNet.Engine.Http3.Engine

/-!
# Responses as XQUIC reports them

A response is handed to the callbacks in pieces: header sections, parts of the body, and the end of the
stream, which comes with one of them or alone.  `Heard` is what has been heard of it so far, in terms of
its content only.
-/

namespace AsterNet

namespace Http3

open ByteString

/-- A header section reported as the initial one or as a later one, or a part of the body. -/
inductive Piece
  | initial (fields : List Header)
  | data (bytes : Bytes)
  | later (fields : List Header)
  deriving DecidableEq, Repr

/-- A header section with a status. -/
def IsSection (fields : List Header) : Prop :=
  ∃ status, 100 ≤ status ∧ status < 600 ∧ ∃ others, fields = ⟨ascii ":status", decimal status⟩ :: others ∧
    ∀ h ∈ others, h.name ≠ ascii ":status"

/-- The status a section announces. -/
def announced (fields : List Header) : Option ℤ :=
  (fields.find? fun h => h.name = ascii ":status").bind fun h => parseHttpStatus h.value

namespace Piece

/-- The status of a header section. -/
def status : Piece → Option ℤ
  | initial fields => announced fields
  | data _ => none
  | later fields => announced fields

/-- The part of the body. -/
def content : Piece → Bytes
  | data bytes => bytes
  | _ => []

end Piece

/-! ### The pieces of an event -/

/-- What one body notification hands out, each part with `fin`. -/
def handedOut : List BodyRead → List (Piece × Bool)
  | .data bytes fin :: reads =>
    (.data bytes, fin) :: if fin ∨ bytes = [] then [] else handedOut reads
  | _ => []

/-- The header section a notification hands out, if there is one. -/
def sectionPieces (piece : List Header → Piece) : Option Received → List (Piece × Bool)
  | some (some (fields, fin)) => [(piece fields, fin)]
  | _ => []

namespace ReadNotify

variable (notify : ReadNotify)

/-- The pieces of a notification; the end of the stream alone is an empty part of the body. -/
def pieces : List (Piece × Bool) :=
  sectionPieces .initial notify.header ++ notify.body.elim [] handedOut ++
    sectionPieces .later notify.trailer ++ if notify.emptyFin then [(.data [], true)] else []

/-- Nothing fails in it. -/
structure Clean : Prop where
  header : notify.header ≠ some none
  body : ∀ reads, notify.body = some reads → .failed ∉ reads
  trailer : notify.trailer ≠ some none

end ReadNotify

namespace Event

/-- The pieces of an event. -/
def pieces : Event → List (Piece × Bool)
  | readable notify => notify.pieces
  | _ => []

/-- An event without error: sending does not fail, and nothing is closed before the response is
complete. -/
def Fine (ctx : RequestContext) : Event → Prop
  | readable notify => notify.Clean
  | handshake outcome => (handshakeFinished ctx outcome).failed = ctx.failed
  | writable results => (sendPendingBody ctx results).failed = ctx.failed
  | streamClose streamErr => ctx.finished = true ∧ streamErr = 0
  | connClose => ctx.finished = true
  | closing _ => ctx.finished = true
  | certRejected => False
  | socketFailed => False

end Event

/-- Every event is without error where it happens. -/
def FineRun : RequestContext → List Event → Prop
  | _, [] => True
  | ctx, event :: events => event.Fine ctx ∧ FineRun (handle ctx event) events

/-! ### What is heard -/

/-- What has been heard of a response. -/
structure Heard where
  status : Option ℤ := none
  content : Bytes := []
  ended : Bool := false
  deriving DecidableEq, Repr

namespace Heard

/-- One more piece. -/
def take (heard : Heard) (piece : Piece × Bool) : Heard where
  status := match piece.1 with
    | .initial fields => announced fields
    | _ => heard.status
  content := heard.content ++ piece.1.content
  ended := heard.ended || piece.2

/-- The piece may come now: the response has not ended, an initial section has a status, the body stays
within the limit, and the end comes when a status is known. -/
structure Admits (limit : ℕ) (heard : Heard) (piece : Piece × Bool) : Prop where
  running : heard.ended = false
  section_status : ∀ fields, piece.1 = .initial fields → IsSection fields
  fits : (heard.take piece).content.length ≤ limit
  end_status : piece.2 = true → (heard.take piece).status ≠ none

/-- The pieces may come one after the other. -/
def AdmitsAll (limit : ℕ) : Heard → List (Piece × Bool) → Prop
  | _, [] => True
  | heard, piece :: pieces => heard.Admits limit piece ∧ AdmitsAll limit (heard.take piece) pieces

theorem admitsAll_append {limit : ℕ} {heard : Heard} {pieces pieces' : List (Piece × Bool)} :
    AdmitsAll limit heard (pieces ++ pieces') ↔
      AdmitsAll limit heard pieces ∧ AdmitsAll limit (pieces.foldl take heard) pieces' := by
  induction pieces generalizing heard with
  | nil => simp [AdmitsAll]
  | cons piece pieces ih => simp only [List.cons_append, AdmitsAll, ih, List.foldl_cons, and_assoc]

theorem foldl_take_content (heard : Heard) (pieces : List (Piece × Bool)) :
    (pieces.foldl take heard).content = heard.content ++ pieces.flatMap fun piece => piece.1.content := by
  induction pieces generalizing heard with
  | nil => simp
  | cons piece pieces ih => rw [List.foldl_cons, ih, List.flatMap_cons, take, List.append_assoc]

theorem foldl_take_ended (heard : Heard) (pieces : List (Piece × Bool)) :
    (pieces.foldl take heard).ended = (heard.ended || pieces.any Prod.snd) := by
  induction pieces generalizing heard with
  | nil => simp
  | cons piece pieces ih => rw [List.foldl_cons, ih, List.any_cons, take, Bool.or_assoc]

end Heard

end Http3

end AsterNet
