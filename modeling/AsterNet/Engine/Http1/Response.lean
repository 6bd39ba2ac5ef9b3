import AsterNet.Engine.Engine
import AsterNet.Engine.Http1.Chunked
import AsterNet.Lib.Segmented

/-!
# Reading an HTTP/1.1 response (`Http1Engine::request`, part 4)

The part of `Http1Engine::request` after the request has been written: the header sections, interim
responses included, the scan of the final section's fields, and the body in its framing.  The TLS
stream is a `Segmented.Source`; each of the five read loops is a `Segmented.readWhile`.

`size_t` is 64 bits wide: sums with the configured limit wrap.  The lengths of buffers are those of
strings in memory and do not.

A `Reply` also records what the source computes and forgets: the header sections it took off the
stream, the bytes of the stream it takes for the body message, and whether a loop stopped because a
read failed.
-/

namespace AsterNet

namespace Http1

open ByteString Segmented

/-- `std::string::npos`. -/
def npos : ℕ := 2 ^ 64 - 1

/-- `kMaxResponseHeaders`. -/
def kMaxResponseHeaders : ℕ := 64 * 1024

/-- `sizeof(buf)`. -/
def bufSize : ℕ := 4096

/-- Reduction to `size_t`. -/
def sizeT (n : ℕ) : ℕ := n % 2 ^ 64

/-! ### The header sections -/

/-- The header loop goes on: no section end yet, and not too many bytes. -/
def headersPending (raw : Bytes) : Bool :=
  (find emptyLineMark raw).isNone && decide (raw.length ≤ kMaxResponseHeaders)

/-- The loop that reads a header section, for the final and for interim responses. -/
def readHeaders (raw : Bytes) (source : Source) : Bytes × Source :=
  readWhile headersPending (fun _ => bufSize) raw source

/-- `parse_status`: the status stays as it was when the buffer does not hold two blanks. -/
def parseStatus (raw : Bytes) (httpStatus : ℤ) : ℤ :=
  match find [32] raw with
  | none => httpStatus
  | some sp1 =>
    match findFrom [32] raw (sp1 + 1) with
    | none => httpStatus
    | some _ => atoi (cStr (raw.drop (sp1 + 1)))

/-- What is known when the header loops are done. -/
structure Head where
  sections : List Bytes
  httpStatus : ℤ
  /-- The final section without its end mark. -/
  headers : Bytes
  /-- `raw.substr(header_end + 4)`. -/
  body : Bytes
  source : Source
  deriving DecidableEq, Repr

/-- What is known when a header loop gives up. -/
structure HeadFailure where
  httpStatus : ℤ
  readFailed : Bool
  deriving DecidableEq, Repr

/-- The loop stopped here because the read answered a negative number. -/
def stoppedByFailure (cond : Bytes → Bool) (size : Bytes → ℕ) (read : Bytes × Source) : Bool :=
  cond read.1 && decide (read.2.read (size read.1) = .negative)

/-- The header loop and, for interim responses, its repetitions. -/
def readHead (sections : List Bytes) (httpStatus : ℤ) (raw : Bytes) (source : Source) :
    Except HeadFailure Head :=
  match _hr : readHeaders raw source with
  | (raw', source') =>
    match _hf : find emptyLineMark raw' with
    | none =>
      .error ⟨httpStatus, stoppedByFailure headersPending (fun _ => bufSize) (raw', source')⟩
    | some headerEnd =>
      if kMaxResponseHeaders < raw'.length then .error ⟨httpStatus, false⟩
      else
        let status := parseStatus raw' httpStatus
        let sections := sections ++ [raw'.take (headerEnd + 4)]
        if status.tdiv 100 = 1 then
          readHead sections status (raw'.drop (headerEnd + 4)) source'
        else .ok ⟨sections, status, raw'.take headerEnd, raw'.drop (headerEnd + 4), source'⟩
termination_by raw.length + source.bytes.length
decreasing_by
  have hlen := congrArg List.length (readWhile_bytes headersPending (fun _ => bufSize) raw source)
  rw [show readWhile headersPending (fun _ => bufSize) raw source = (raw', source') from _hr] at hlen
  have := find_add_length_le _hf
  simp only [emptyLineMark, List.length_cons, List.length_nil, List.length_append,
    List.length_drop] at *
  omega

/-! ### The fields -/

/-- What the scan of the header lines finds.  `cl = npos` stands for no `Content-Length`. -/
structure Scan where
  chunked : Bool := false
  connectionClose : Bool := false
  cl : ℕ := npos
  invalid : Bool := false
  deriving DecidableEq, Repr

/-- The lines of a section, cut at each CRLF. -/
def headerLines (headers : Bytes) : List Bytes :=
  if _hne : headers = [] then []
  else
    match _h : find crlf headers with
    | none => [headers]
    | some lineEnd => headers.take lineEnd :: headerLines (headers.drop (lineEnd + 2))
termination_by headers.length
decreasing_by
  have := List.length_pos_of_ne_nil _hne
  rw [List.length_drop]
  omega

/-- The lower-cased name and the trimmed value of a line with a colon. -/
def parseField (line : Bytes) : Option (Bytes × Bytes) :=
  (find [58] line).map fun colon => (lower (line.take colon), trimBlanks (line.drop (colon + 1)))

/-- A `Content-Length` value: `strtoull` in base 10, then only blanks up to the end of the C string. -/
def parseLength (value : Bytes) : Option ℕ :=
  let text := cStr value
  let number := strtoull 10 text
  if value = [] ∨ number.range = true ∨ (text.drop number.stop).dropWhile isBlank ≠ [] then none
  else some number.value

/-- One turn of the scan. -/
def scanLine (scan : Scan) (line : Bytes) : Scan :=
  match parseField line with
  | none => scan
  | some (name, value) =>
    if name = ascii "transfer-encoding" ∧ contains (ascii "chunked") (lower value) = true then
      { scan with chunked := true }
    else if name = ascii "connection" ∧ contains (ascii "close") (lower value) = true then
      { scan with connectionClose := true }
    else if name = ascii "content-length" then
      match parseLength value with
      | none => { scan with invalid := true }
      | some parsed =>
        if scan.cl ≠ npos ∧ scan.cl ≠ parsed then { scan with invalid := true }
        else { scan with cl := parsed }
    else scan

/-- The scan of a section, its status line included. -/
def scanHeaders (headers : Bytes) : Scan := (headerLines headers).foldl scanLine {}

/-! ### The body -/

/-- `no_body_status`. -/
def noBodyStatus (req : Request) (httpStatus : ℤ) : Bool :=
  req.method = ascii "HEAD" || httpStatus = 204 || httpStatus = 304

/-- `resp.body`, the bytes of the stream taken for it, and the stream after the last read. -/
structure Body where
  body : Bytes
  message : Bytes
  source : Source
  readFailed : Bool := false
  deriving DecidableEq, Repr

/-- A refused body. -/
structure BodyFailure where
  errCode : Result
  readFailed : Bool := false
  deriving DecidableEq, Repr

/-- A response that has no body. -/
def takeNoBody (body : Bytes) (source : Source) : Except BodyFailure Body :=
  if body ≠ [] then .error ⟨.errProtocol, false⟩ else .ok ⟨[], [], source, false⟩

/-- `max_body + kMaxResponseHeaders`. -/
def codedLimit (maxBody : ℕ) : ℕ := sizeT (maxBody + kMaxResponseHeaders)

/-- The chunked loop goes on: the decoder wants more, and the buffer is within the limit. -/
def chunkedPending (maxBody : ℕ) : Bytes → Bool :=
  Incremental.pending (fun raw => decodeChunked raw []) (codedLimit maxBody)

/-- The chunked framing. -/
def readChunked (maxBody : ℕ) (body : Bytes) (source : Source) : Except BodyFailure Body :=
  let read := readWhile (chunkedPending maxBody) (fun _ => bufSize) body source
  let readFailed := stoppedByFailure (chunkedPending maxBody) (fun _ => bufSize) read
  -- a buffer beyond the limit is not decoded any more
  let parseResult := if read.1.length ≤ codedLimit maxBody then decodeChunked read.1 []
    else .incomplete
  match parseResult with
  | .complete decoded rest =>
    if maxBody < decoded.length then .error ⟨.errBufferTooSmall, readFailed⟩
    else .ok ⟨decoded, read.1.take (read.1.length - rest.length), read.2, readFailed⟩
  | _ =>
    .error ⟨if codedLimit maxBody < read.1.length then .errBufferTooSmall else .errProtocol,
      readFailed⟩

/-- What the `Content-Length` loop asks for. -/
def lengthReadSize (cl : ℕ) (body : Bytes) : ℕ := min (cl - body.length) bufSize

/-- The `Content-Length` framing. -/
def readLength (maxBody cl : ℕ) (body : Bytes) (source : Source) : Except BodyFailure Body :=
  if maxBody < cl then .error ⟨.errBufferTooSmall, false⟩
  else
    let pending := fun body : Bytes => decide (body.length < cl)
    let read := readWhile pending (lengthReadSize cl) body source
    let readFailed := stoppedByFailure pending (lengthReadSize cl) read
    if read.1.length < cl then .error ⟨.errProtocol, readFailed⟩
    else if cl < read.1.length then .error ⟨.errProtocol, readFailed⟩
    else .ok ⟨read.1.take cl, read.1, read.2, readFailed⟩

/-- What the loop to the end of the stream asks for: one byte more than is allowed.  `remaining + 1`
wraps to `0` when all of `size_t` remains. -/
def endReadSize (maxBody : ℕ) (body : Bytes) : ℕ := min (sizeT (maxBody - body.length + 1)) bufSize

/-- The framing by the end of the stream. -/
def readToEnd (maxBody : ℕ) (body : Bytes) (source : Source) : Except BodyFailure Body :=
  let pending := fun body : Bytes => decide (body.length ≤ maxBody)
  let read := readWhile pending (endReadSize maxBody) body source
  let readFailed := stoppedByFailure pending (endReadSize maxBody) read
  if maxBody < read.1.length then .error ⟨.errBufferTooSmall, readFailed⟩
  else .ok ⟨read.1, read.1, read.2, readFailed⟩

/-- The body, in the framing the scan found. -/
def readBody (req : Request) (head : Head) (scan : Scan) : Except BodyFailure Body :=
  let maxBody := req.maxResponseBodyBytes.toNat
  if noBodyStatus req head.httpStatus then takeNoBody head.body head.source
  else if scan.chunked then readChunked maxBody head.body head.source
  else if scan.cl ≠ npos then readLength maxBody scan.cl head.body head.source
  else readToEnd maxBody head.body head.source

/-! ### The response -/

/-- What `Http1Engine::request` answers, without the times it measures. -/
structure Reply where
  errCode : Result
  failureStage : String := ""
  httpStatus : ℤ := 0
  body : Bytes := []
  connectionReused : Bool := false
  sections : List Bytes := []
  message : Bytes := []
  readFailed : Bool := false
  deriving DecidableEq, Repr

/-- The bytes of the stream that belong to the response. -/
def Reply.attributed (reply : Reply) : Bytes := reply.sections.flatten ++ reply.message

/-- The connection stays open after a response. -/
def keepsConnection (req : Request) (head : Head) (scan : Scan) : Bool :=
  !(scan.connectionClose || noBodyStatus req head.httpStatus || (!scan.chunked && scan.cl == npos))

/-- Read and judge one response.  The stream is given back when the connection stays open. -/
def readResponse (req : Request) (source : Source) : Reply × Option Source :=
  match readHead [] 0 [] source with
  | .error failure =>
    ({ errCode := .errProtocol, failureStage := "ttfb", httpStatus := failure.httpStatus,
       readFailed := failure.readFailed }, none)
  | .ok head =>
    let scan := scanHeaders head.headers
    if scan.invalid then
      ({ errCode := .errProtocol, failureStage := "header", httpStatus := head.httpStatus }, none)
    else
      match readBody req head scan with
      | .error failure =>
        ({ errCode := failure.errCode, failureStage := "body", httpStatus := head.httpStatus,
           readFailed := failure.readFailed }, none)
      | .ok body =>
        if req.maxResponseBodyBytes.toNat < body.body.length then
          ({ errCode := .errBufferTooSmall, failureStage := "body", httpStatus := head.httpStatus,
             body := body.body, readFailed := body.readFailed }, none)
        else
          ({ errCode := .ok, httpStatus := head.httpStatus, body := body.body,
             sections := head.sections, message := body.message, readFailed := body.readFailed },
            if keepsConnection req head scan then some body.source else none)

end Http1

end AsterNet
