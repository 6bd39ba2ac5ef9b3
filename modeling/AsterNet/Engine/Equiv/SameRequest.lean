import AsterNet.Abi.Equiv.Accepted
import AsterNet.Engine.Http1.Engine
import AsterNet.Engine.Http2.Engine
import AsterNet.Engine.Http3.Engine

/-!
# The same request over every protocol

* `sendsSame_iff`: a request of the C interface is the same logical request in all three engines if and
  only if its port is not 80 and it has no header called `keep-alive`, `proxy-connection` or `upgrade`.

HTTP/1.1 leaves the port out for 80 too, and HTTP/3 forwards the headers the other two drop.
-/

namespace AsterNet

open ByteString

/-- A request without the syntax of its protocol.  The names of the headers are in lower case. -/
structure LogicalRequest where
  method : Bytes
  authority : Bytes
  path : Bytes
  headers : List Header
  body : Bytes
  deriving DecidableEq, Repr

/-- The value of the first field with this name. -/
def fieldValue (name : Bytes) (fields : List Header) : Bytes :=
  ((fields.find? fun h => h.name = name).map Header.value).getD []

/-- A header up to letter case of its name. -/
def Header.folded (h : Header) : Header := { h with name := lower h.name }

/-! ### What each engine sends -/

/-- The request in the text of HTTP/1.1; `none` when it is refused for its content. -/
def Http1.logicalRequest (req : Request) : Option LogicalRequest :=
  if Http1.hasCrlf req.host || Http1.hasCrlf req.connectHost || Http1.hasCrlf req.method ||
      Http1.hasCrlf req.path then none
  else
    (Http1.customHeaders req.headers).map fun custom =>
      { method := req.method
        authority := fieldValue (ascii "Host") (Http1.engineHeaders req ++ custom)
        path := req.path
        headers := ((Http1.engineHeaders req ++ custom).drop (Http1.engineHeaders req).length).map
          Header.folded
        body := req.body }

/-- The request in the fields of HTTP/2 and HTTP/3: behind the pseudo-headers and `user-agent` stand the
custom headers. -/
def ofFields (fields : List Header) (body : Bytes) : LogicalRequest where
  method := fieldValue (ascii ":method") fields
  authority := fieldValue (ascii ":authority") fields
  path := fieldValue (ascii ":path") fields
  headers := (fields.drop 5).map Header.folded
  body := body

/-- The request HTTP/2 submits; `none` when it is refused for its content. -/
def Http2.logicalRequest (req : Request) : Option LogicalRequest :=
  if Http2.hasCrlf req.host || Http2.hasCrlf req.connectHost || Http2.hasCrlf req.method ||
      Http2.hasCrlf req.path then none
  else
    (Http2.customHeaders req.headers).map fun custom =>
      ofFields (Http2.requestHeaders req custom) req.body

/-- The request HTTP/3 sends; it refuses none. -/
def Http3.logicalRequest (req : Request) : Option LogicalRequest :=
  some (ofFields (Http3.requestHeaders (Http3.newContext req)) (Http3.newContext req).body)

/-- All three engines send the same request or refuse it, and none forwards a header that belongs to
the engine. -/
def SendsSame (req : Request) : Prop :=
  Http1.logicalRequest req = Http2.logicalRequest req ∧
    Http2.logicalRequest req = Http3.logicalRequest req ∧
    ∀ l, Http1.logicalRequest req = some l → ∀ h ∈ l.headers, Http1.ownedHeader h.name = false

instance (req : Request) : Decidable (SendsSame req) := by
  unfold SendsSame
  cases Http1.logicalRequest req with
  | none => exact decidable_of_iff (none = Http2.logicalRequest req ∧
      Http2.logicalRequest req = Http3.logicalRequest req) (by simp)
  | some l => exact decidable_of_iff (some l = Http2.logicalRequest req ∧
      Http2.logicalRequest req = Http3.logicalRequest req ∧
      ∀ h ∈ l.headers, Http1.ownedHeader h.name = false) (by simp)

/-- The text of HTTP/1.1 is that of its logical request. -/
theorem requestText_of_logicalRequest {req : Request} {l : LogicalRequest}
    (h : Http1.logicalRequest req = some l) : ∃ custom, custom.map Header.folded = l.headers ∧
      Http1.requestText req custom = l.method ++ ascii " " ++ l.path ++ ascii " HTTP/1.1" ++ crlf ++
        (Http1.headerLine ⟨ascii "Host", l.authority⟩ ++
          (Http1.engineHeaders req).tail.flatMap Http1.headerLine ++
          custom.flatMap Http1.headerLine) ++ crlf ++ l.body := by
  unfold Http1.logicalRequest at h
  split_ifs at h
  rw [Option.map_eq_some_iff] at h
  obtain ⟨custom, -, rfl⟩ := h
  refine ⟨custom, by rw [List.drop_left], ?_⟩
  rw [Http1.requestText, List.flatMap_append]
  rfl

/-! ### Accepted headers -/

/-- The headers are forwarded unless they belong to the engine. -/
def forwarded (headers : List Header) : List Header :=
  headers.filter fun h => !Http1.ownedHeader (lower h.name)

theorem mapM_eq_some_map {α β : Type} {f : α → Option β} {g : α → β} {l : List α}
    (h : ∀ a ∈ l, f a = some (g a)) : l.mapM f = some (l.map g) := by
  induction l with
  | nil => rfl
  | cons a l ih =>
    rw [List.mapM_cons, h a (List.mem_cons_self ..),
      ih fun b hmem => h b (List.mem_cons_of_mem _ hmem)]
    rfl

theorem filterMap_forwarded (headers : List Header) :
    (headers.map fun h => if Http1.ownedHeader (lower h.name) then none else some h).filterMap id =
      forwarded headers := by
  induction headers with
  | nil => rfl
  | cons h headers ih =>
    rw [List.map_cons, forwarded, List.filter_cons]
    cases howned : Http1.ownedHeader (lower h.name) with
    | true => exact ih
    | false => exact congrArg (h :: ·) ih

variable {h : Header} {req : Request}

theorem all_isTokenChar_of_accepted (hacc : Abi.AcceptedHeader h) :
    h.name.all Http1.isTokenChar = true ∧ h.name ≠ [] := by
  have htoken := hacc.token
  rw [Abi.validToken, Bool.and_eq_true] at htoken
  exact ⟨htoken.2, by simpa using htoken.1⟩

theorem http1_customHeader_of_accepted (hacc : Abi.AcceptedHeader h) :
    Http1.customHeader h = some (if Http1.ownedHeader (lower h.name) then none else some h) := by
  obtain ⟨hall, hne⟩ := all_isTokenChar_of_accepted hacc
  have hname : Http1.hasCrlf h.name = false := Abi.containsCrlf_of_validToken hacc.token
  have hvalue : Http1.hasCrlf h.value = false := hacc.no_crlf
  rw [Http1.customHeader, hname, hvalue, hall]
  rw [if_neg (by simp), if_neg hne, if_neg (by simp)]
  split_ifs <;> rfl

theorem head?_ne_colon_of_accepted (hacc : Abi.AcceptedHeader h) : h.name.head? ≠ some 58 := by
  obtain ⟨hall, -⟩ := all_isTokenChar_of_accepted hacc
  intro hcolon
  have htoken := List.all_eq_true.mp hall 58 (List.mem_of_mem_head? hcolon)
  revert htoken
  decide

theorem http2_customHeader_of_accepted (hacc : Abi.AcceptedHeader h)
    (hte : lower h.name = ascii "te" → trimBlanks (lower h.value) = ascii "trailers") :
    Http2.customHeader h = some (if Http1.ownedHeader (lower h.name) then none else some h) := by
  obtain ⟨hall, hne⟩ := all_isTokenChar_of_accepted hacc
  have hname : Http2.hasCrlf h.name = false := Abi.containsCrlf_of_validToken hacc.token
  have hvalue : Http2.hasCrlf h.value = false := hacc.no_crlf
  have hempty : h.name.isEmpty = false := by simpa using hne
  have hcolon : decide (h.name.head? = some 58) = false := by
    simpa using head?_ne_colon_of_accepted hacc
  have htoken : h.name.all Http2.isTokenChar = true := hall
  have hte' : ¬ (lower h.name = ascii "te" ∧ trimBlanks (lower h.value) ≠ ascii "trailers") :=
    fun hbad => hbad.2 (hte hbad.1)
  rw [Http2.customHeader, hname, hvalue, hempty, hcolon, htoken, if_neg (by simp), if_neg (by simp),
    if_neg hte']
  split_ifs with howned howned' howned'
  · rfl
  · exact absurd howned howned'
  · exact absurd howned' howned
  · rfl

/-- The names that are owned by the engines but not refused by the C interface. -/
def droppedNames : List Bytes := [ascii "keep-alive", ascii "proxy-connection", ascii "upgrade"]

theorem ownedHeader_iff_of_accepted (hacc : Abi.AcceptedHeader h) :
    Http1.ownedHeader (lower h.name) = true ↔ lower h.name ∈ droppedNames := by
  have hprotected := hacc.not_protected
  simp only [Abi.protectedHeader, List.contains_eq_mem, decide_eq_false_iff_not, List.mem_cons,
    List.not_mem_nil, or_false, not_or] at hprotected
  simp only [Http1.ownedHeader, droppedNames, List.contains_eq_mem, decide_eq_true_eq, List.mem_cons,
    List.not_mem_nil, or_false]
  -- four of the seven names are protected, so they do not come this far
  constructor
  · rintro (h | h | h | h | h | h | h)
    · exact absurd h hprotected.1
    · exact absurd h hprotected.2.2.2
    · exact absurd h hprotected.2.1
    · exact absurd h hprotected.2.2.1
    · exact .inl h
    · exact .inr (.inl h)
    · exact .inr (.inr h)
  · rintro (h | h | h)
    · exact .inr (.inr (.inr (.inr (.inl h))))
    · exact .inr (.inr (.inr (.inr (.inr (.inl h)))))
    · exact .inr (.inr (.inr (.inr (.inr (.inr h)))))

/-! ### The logical requests -/

/-- A request of the C interface, with the endpoint the client adds. -/
structure FromAbi (req : Request) : Prop where
  accepted : Abi.Accepted req
  endpoint : Abi.containsCrlf req.connectHost = false
  /-- HTTP/2 refuses every other `te`. -/
  te : ∀ h ∈ req.headers, lower h.name = ascii "te" → trimBlanks (lower h.value) = ascii "trailers"

theorem not_crlf_of_accepted (hacc : Abi.Accepted req)
    (hendpoint : Abi.containsCrlf req.connectHost = false) : (Abi.containsCrlf req.host ||
    Abi.containsCrlf req.connectHost || Abi.containsCrlf req.method ||
      Abi.containsCrlf req.path) = false := by
  have hhost := hacc.host
  have hpath := hacc.path
  rw [Abi.validHost, Bool.and_eq_true] at hhost
  rw [Abi.validPath, Bool.and_eq_true] at hpath
  rw [Abi.containsCrlf_of_noControls hhost.2, hendpoint,
    Abi.containsCrlf_of_validToken hacc.method, Abi.containsCrlf_of_noControls hpath.2]
  rfl

theorem http1_customHeaders_of_accepted {headers : List Header}
    (hacc : ∀ h ∈ headers, Abi.AcceptedHeader h) :
    Http1.customHeaders headers = some (forwarded headers) := by
  rw [Http1.customHeaders, mapM_eq_some_map fun h hmem => http1_customHeader_of_accepted (hacc h hmem),
    Option.map_some, filterMap_forwarded]

theorem http1_logicalRequest (hreq : FromAbi req) : Http1.logicalRequest req = some
    ⟨req.method, Http1.hostHeader req, req.path, (forwarded req.headers).map Header.folded, req.body⟩ := by
  have hcustom := http1_customHeaders_of_accepted hreq.accepted.headers
  have hcrlf : ¬ (Http1.hasCrlf req.host || Http1.hasCrlf req.connectHost ||
      Http1.hasCrlf req.method || Http1.hasCrlf req.path) = true :=
    Bool.eq_false_iff.mp (not_crlf_of_accepted hreq.accepted hreq.endpoint)
  rw [Http1.logicalRequest, if_neg hcrlf, hcustom, Option.map_some, List.drop_left]
  rfl

theorem http2_logicalRequest (hreq : FromAbi req) : Http2.logicalRequest req = some
    ⟨req.method, Http2.authority req, req.path, (forwarded req.headers).map Header.folded,
      req.body⟩ := by
  have hcustom : Http2.customHeaders req.headers = some (forwarded req.headers) := by
    rw [Http2.customHeaders, mapM_eq_some_map fun h hmem =>
      http2_customHeader_of_accepted (hreq.accepted.headers h hmem) (hreq.te h hmem),
      Option.map_some, filterMap_forwarded]
  have hcrlf : ¬ (Http2.hasCrlf req.host || Http2.hasCrlf req.connectHost ||
      Http2.hasCrlf req.method || Http2.hasCrlf req.path) = true :=
    Bool.eq_false_iff.mp (not_crlf_of_accepted hreq.accepted hreq.endpoint)
  rw [Http2.logicalRequest, if_neg hcrlf, hcustom]
  rfl

theorem http3_logicalRequest (req : Request) : Http3.logicalRequest req = some
    ⟨req.method, Http2.authority req, req.path, req.headers.map Header.folded, req.body⟩ := rfl

/-- The authorities agree unless the port is 80. -/
theorem hostHeader_eq_authority_iff (req : Request) :
    Http1.hostHeader req = Http2.authority req ↔ req.port ≠ 80 := by
  rw [Http1.hostHeader, Http2.authority]
  by_cases h80 : req.port = 80
  · rw [h80, if_neg (by decide), if_pos (by decide)]
    refine iff_of_false ?_ (by simp)
    intro heq
    have hlen := congrArg List.length heq
    simp [ascii] at hlen
  · refine iff_of_true ?_ h80
    by_cases h443 : req.port = 443
    · rw [if_neg (by simp [h443]), if_neg (not_not.mpr h443)]
    · rw [if_pos ⟨h443, h80⟩, if_pos h443]

/-- Nothing is dropped when no header has one of the names. -/
theorem forwarded_eq_iff (hreq : FromAbi req) :
    (forwarded req.headers).map Header.folded = req.headers.map Header.folded ↔
      ∀ h ∈ req.headers, lower h.name ∉ droppedNames := by
  have hnames : (∀ h ∈ req.headers, lower h.name ∉ droppedNames) ↔
      forwarded req.headers = req.headers := by
    rw [forwarded, List.filter_eq_self]
    refine forall₂_congr fun h hmem => ?_
    rw [← ownedHeader_iff_of_accepted (hreq.accepted.headers h hmem), Bool.not_eq_true',
      Bool.not_eq_true]
  rw [hnames]
  constructor
  · intro heq
    have hlen := congrArg List.length heq
    rw [List.length_map, List.length_map] at hlen
    exact List.filter_sublist.eq_of_length hlen
  · intro heq
    rw [heq]

theorem ownedHeader_of_mem_forwarded {headers : List Header}
    (hmem : h ∈ (forwarded headers).map Header.folded) : Http1.ownedHeader h.name = false := by
  obtain ⟨h', hmem', rfl⟩ := List.mem_map.mp hmem
  have hforwarded : Http1.ownedHeader (lower h'.name) = false := by
    simpa using (List.mem_filter.mp hmem').2
  exact hforwarded

/-- **When the fallback sends the same request.** -/
theorem sendsSame_iff {config : Abi.AbiConfig} {request : Abi.AbiRequest} {accepted : Request}
    {endpoint : Bytes} (hacc : Abi.internalRequest config request = some accepted)
    (hendpoint : Abi.containsCrlf endpoint = false)
    (hte : ∀ h ∈ accepted.headers, lower h.name = ascii "te" →
      trimBlanks (lower h.value) = ascii "trailers") :
    SendsSame { accepted with connectHost := endpoint } ↔
      accepted.port ≠ 80 ∧ ∀ h ∈ accepted.headers, lower h.name ∉ droppedNames := by
  have hok := Abi.accepted_of_internalRequest hacc
  have hreq : FromAbi { accepted with connectHost := endpoint } :=
    ⟨⟨hok.host, hok.method, hok.path, hok.headers⟩, hendpoint, hte⟩
  rw [SendsSame, http1_logicalRequest hreq, http2_logicalRequest hreq, http3_logicalRequest,
    ← forwarded_eq_iff hreq]
  have hport := hostHeader_eq_authority_iff { accepted with connectHost := endpoint }
  rw [← hport]
  -- the three requests can differ in the authority and in the headers only
  simp only [Option.some.injEq, LogicalRequest.mk.injEq, true_and, and_true]
  constructor
  · rintro ⟨hauthority, hheaders, -⟩
    exact ⟨hauthority, hheaders⟩
  · rintro ⟨hauthority, hheaders⟩
    refine ⟨hauthority, hheaders, ?_⟩
    rintro l rfl h hmem
    exact ownedHeader_of_mem_forwarded hmem

/-- A `GET` of `/` on this port with this header. -/
def getWith (port : UInt16) (name value : Abi.CString) : Abi.AbiRequest where
  host := some ⟨ascii "h", by decide⟩
  port := port
  method := some ⟨ascii "GET", by decide⟩
  path := some ⟨ascii "/", by decide⟩
  headers := some [⟨some name, some value⟩]
  headerCount := 1

/-- `Accept: a` on port 8443. -/
def getAccept : Abi.AbiRequest := getWith 8443 ⟨ascii "Accept", by decide⟩ ⟨ascii "a", by decide⟩

/-- What becomes of a request of the C interface. -/
def acceptedOf (request : Abi.AbiRequest) : Request :=
  (Abi.internalRequest {} request).getD { host := [] }

theorem sendsSame_getAccept_iff :
    SendsSame { acceptedOf getAccept with connectHost := ascii "192.0.2.1" } ↔
      (acceptedOf getAccept).port ≠ 80 ∧
        ∀ h ∈ (acceptedOf getAccept).headers, lower h.name ∉ droppedNames :=
  sendsSame_iff (show Abi.internalRequest {} getAccept = some (acceptedOf getAccept) by decide +kernel)
    (by decide) (by decide +kernel)

theorem exists_not_sendsSame : ∃ request accepted, Abi.internalRequest {} request = some accepted ∧
    (∀ h ∈ accepted.headers, lower h.name ≠ ascii "te") ∧ ¬ SendsSame accepted :=
  ⟨getWith 443 ⟨ascii "Upgrade", by decide⟩ ⟨ascii "a", by decide⟩,
    acceptedOf (getWith 443 ⟨ascii "Upgrade", by decide⟩ ⟨ascii "a", by decide⟩),
    by decide +kernel, by decide +kernel, by decide +kernel⟩

end AsterNet
