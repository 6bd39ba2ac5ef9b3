import AsterNet.Engine.Http1.Response
import AsterNet.Engine.Pooled

/-!
# The HTTP/1.1 engine (`http1_engine.cpp`)

`Http1Engine::request` from the pooled connection to the reply: `ensure_connection`, the check and the
text of the request, the write loop, and the response (`readResponse`).  What opening a connection
does (name lookup, TCP, TLS) is a parameter, `Dial`.
-/

namespace AsterNet

namespace Http1

open ByteString Segmented

/-! ### The connection -/

/-- The answer of one `SSL_write`: it took at most so many bytes (but at least one), or failed. -/
inductive WriteResult
  | wrote (atMost : ℕ)
  | failed
  deriving DecidableEq, Repr

/-- A TLS connection: the answers of its next writes (it takes everything once they are used up), what
was written so far, and the stream it reads. -/
structure Ssl where
  writes : List WriteResult := []
  sent : Bytes := []
  source : Source
  deriving DecidableEq, Repr

/-- Opening connections: `connect_with_timeout` and the TLS set-up. -/
abbrev Dial := PoolKey → ℤ → Except DialFailure Ssl

/-- The state of the engine. -/
structure Http1Engine where
  settings : TlsSettings := {}
  /-- `PooledConnection`: its key and its TLS connection. -/
  connection : Option (PoolKey × Ssl) := none
  deriving DecidableEq, Repr

/-! ### The request text -/

/-- `has_crlf`, and the same test on custom headers. -/
def hasCrlf (s : Bytes) : Bool := s.any fun c => c == 13 || c == 10

/-- `token` of `append_custom_header`. -/
def isTokenChar (c : UInt8) : Bool := isAlnum c || (ascii "!#$%&'*+-.^_`|~").contains c

/-- The names the engine writes itself or leaves out. -/
def ownedHeader (lowerName : Bytes) : Bool :=
  [ascii "host", ascii "connection", ascii "content-length", ascii "transfer-encoding",
    ascii "keep-alive", ascii "proxy-connection", ascii "upgrade"].contains lowerName

/-- `append_custom_header`: the header as it is forwarded, if it is; `none` when it is refused. -/
def customHeader (h : Header) : Option (Option Header) :=
  if hasCrlf h.name || hasCrlf h.value then none
  else if h.name = [] then none
  else if h.name.all isTokenChar = false then none
  else if ownedHeader (lower h.name) then some none
  else some (some h)

/-- The custom headers in order, unless one is refused. -/
def customHeaders (headers : List Header) : Option (List Header) :=
  (headers.mapM customHeader).map fun forwarded => forwarded.filterMap id

/-- `name: value` and a line end. -/
def headerLine (h : Header) : Bytes := h.name ++ ascii ": " ++ h.value ++ crlf

/-- `host_hdr`: the port is left out when it is 443 or 80. -/
def hostHeader (req : Request) : Bytes :=
  if req.port ≠ 443 ∧ req.port ≠ 80 then req.host ++ ascii ":" ++ decimal req.port.toNat
  else req.host

/-- The headers the engine writes before the custom ones. -/
def engineHeaders (req : Request) : List Header :=
  [⟨ascii "Host", hostHeader req⟩, ⟨ascii "User-Agent", ascii "asternet/0.1"⟩,
    ⟨ascii "Connection", ascii "keep-alive"⟩] ++
  if req.body = [] then [] else [⟨ascii "Content-Length", decimal req.body.length⟩]

/-- `req_str`. -/
def requestText (req : Request) (custom : List Header) : Bytes :=
  req.method ++ ascii " " ++ req.path ++ ascii " HTTP/1.1" ++ crlf ++
    (engineHeaders req ++ custom).flatMap headerLine ++ crlf ++ req.body

/-! ### The write loop -/

/-- `INT_MAX`. -/
def intMax : ℕ := 2 ^ 31 - 1

/-- One `SSL_write`: how many bytes it took. -/
def Ssl.write (ssl : Ssl) (data : Bytes) : Option (ℕ × Ssl) :=
  match ssl.writes with
  | [] => some (data.length, { ssl with sent := ssl.sent ++ data })
  | .failed :: _ => none
  | .wrote atMost :: writes =>
    let n := min (max atMost 1) data.length
    some (n, { ssl with writes := writes, sent := ssl.sent ++ data.take n })

/-- A write that succeeds takes the front of the data, and something of it. -/
theorem Ssl.write_some {ssl ssl' : Ssl} {data : Bytes} {n : ℕ} (h : ssl.write data = some (n, ssl')) :
    n ≤ data.length ∧ (data ≠ [] → 0 < n) ∧ ssl'.sent = ssl.sent ++ data.take n ∧
      ssl'.source = ssl.source ∧ (.failed ∉ ssl.writes → .failed ∉ ssl'.writes) := by
  unfold Ssl.write at h
  split at h
  · obtain ⟨rfl, rfl⟩ := Prod.mk.inj (Option.some.inj h)
    exact ⟨le_rfl, List.length_pos_of_ne_nil, by rw [List.take_length], rfl, id⟩
  · cases h
  · rename_i atMost writes hw
    obtain ⟨rfl, rfl⟩ := Prod.mk.inj (Option.some.inj h)
    refine ⟨Nat.min_le_right _ _, fun hne => ?_, rfl, rfl, fun hf => ?_⟩
    · have := List.length_pos_of_ne_nil hne
      omega
    · rw [hw, List.mem_cons, not_or] at hf
      exact hf.2

/-- The write loop. -/
def writeAll (data : Bytes) (ssl : Ssl) : Option Ssl :=
  if _hne : data = [] then some ssl
  else
    match _h : ssl.write (data.take intMax) with
    | none => none
    | some (n, ssl') => writeAll (data.drop n) ssl'
termination_by data.length
decreasing_by
  have hpos := (Ssl.write_some _h).2.1 (by simpa [intMax] using _hne)
  have := List.length_pos_of_ne_nil _hne
  rw [List.length_drop]
  omega

/-! ### The request -/

/-- `Http1Engine::request`. -/
def request (dial : Dial) (engine : Http1Engine) (req : Request) : Reply × Http1Engine :=
  let closed := { engine with connection := none }
  match ensureConnection dial engine.settings engine.connection req with
  | .error failure =>
    ({ errCode := failure.result,
       failureStage := if failure.result = .errConnect then "connect" else "tls" }, closed)
  | .ok ((key, ssl), reused) =>
    if hasCrlf req.host || hasCrlf req.connectHost || hasCrlf req.method || hasCrlf req.path then
      ({ errCode := .errProtocol, failureStage := "header", connectionReused := reused }, closed)
    else
      match customHeaders req.headers with
      | none =>
        ({ errCode := .errProtocol, failureStage := "header", connectionReused := reused }, closed)
      | some custom =>
        match writeAll (requestText req custom) ssl with
        | none =>
          ({ errCode := .errProtocol, failureStage := "write", connectionReused := reused }, closed)
        | some ssl =>
          let (reply, kept) := readResponse req ssl.source
          ({ reply with connectionReused := reused },
            { engine with connection := kept.map fun source => (key, { ssl with source }) })

/-- `Http1Engine::migrate_connection`. -/
def migrateConnection (engine : Http1Engine) : Http1Engine := { engine with connection := none }

end Http1

end AsterNet
