import AsterNet.Engine.Equiv.SameRequest
import AsterNet.Engine.Http1.Equiv.Request
import AsterNet.Lib.RequestReader

/-!
# The request on the wire

What `request` sends on its connection is `wire` (`request_of_wire`).  The text of a request is the text of a
`RequestReader.Message` (`requestText_eq`), which is well formed where the C interface accepted the request
(`wellFormed_message`).  So a strict reader takes exactly this message off the connection (`read_wire`).
-/

namespace AsterNet

namespace Http1

open ByteString RequestReader

/-- The bytes a request puts on its connection, if it puts all of them there. -/
def wire (dial : Dial) (engine : Http1Engine) (req : Request) : Option Bytes :=
  match ensureConnection dial engine.settings engine.connection req with
  | .error _ => none
  | .ok ((_, ssl), _) =>
    if hasCrlf req.host || hasCrlf req.connectHost || hasCrlf req.method || hasCrlf req.path then none
    else
      match customHeaders req.headers with
      | none => none
      | some custom =>
        (writeAll (requestText req custom) ssl).map fun after => after.sent.drop ssl.sent.length

/-- A header as the reader sees it. -/
def fieldOf (h : Header) : RequestReader.Field := ⟨h.name, h.value⟩

/-- The message of a request. -/
def message (req : Request) (custom : List Header) : RequestReader.Message where
  method := req.method
  target := req.path
  fields := (engineHeaders req ++ custom).map fieldOf
  body := req.body

theorem requestText_eq (req : Request) (custom : List Header) :
    requestText req custom = (message req custom).text := by
  have hlines : (engineHeaders req ++ custom).flatMap headerLine =
      ((engineHeaders req ++ custom).map fieldOf).flatMap fun f => f.line ++ crlf := by
    rw [List.flatMap_map]
    rfl
  unfold requestText RequestReader.Message.text RequestReader.Message.requestLine message
  rw [hlines]

/-! ### What a request sends -/

/-- **A request sends what `wire` says**: its connection has got these bytes more, and the response is read from
it. -/
theorem request_of_wire {dial : Dial} {engine : Http1Engine} {req : Request} {bytes : Bytes}
    (hwire : wire dial engine req = some bytes) :
    ∃ (key : PoolKey) (ssl : Ssl) (reused : Bool) (after : Ssl),
      ensureConnection dial engine.settings engine.connection req = .ok ((key, ssl), reused) ∧
      after.sent = ssl.sent ++ bytes ∧
      request dial engine req =
        ({ (readResponse req after.source).1 with connectionReused := reused },
          { engine with connection := (readResponse req after.source).2.map fun source =>
              (key, { after with source }) }) := by
  unfold wire at hwire
  unfold request
  -- a request that fails before the last write sends nothing to speak of
  cases hconnect : ensureConnection dial engine.settings engine.connection req with
  | error failure =>
    rw [hconnect] at hwire
    cases hwire
  | ok connected =>
    obtain ⟨⟨key, ssl⟩, reused⟩ := connected
    rw [hconnect] at hwire
    dsimp only at hwire ⊢
    split_ifs at hwire ⊢ with hcrlf
    cases hcustom : customHeaders req.headers with
    | none =>
      rw [hcustom] at hwire
      cases hwire
    | some custom =>
      rw [hcustom] at hwire
      dsimp only at hwire ⊢
      obtain ⟨after, hwrite, rfl⟩ := Option.map_eq_some_iff.mp hwire
      rw [hwrite]
      refine ⟨key, ssl, reused, after, rfl, ?_, rfl⟩
      rw [(writeAll_some hwrite).1, List.drop_left]

/-- Where it says nothing, the request fails and no connection is left. -/
theorem request_of_wire_eq_none {dial : Dial} {engine : Http1Engine} {req : Request}
    (hwire : wire dial engine req = none) :
    (request dial engine req).1.errCode ≠ .ok ∧ (request dial engine req).2.connection = none := by
  unfold wire at hwire
  unfold request
  cases hconnect : ensureConnection dial engine.settings engine.connection req with
  | error failure =>
    dsimp only
    exact ⟨by cases failure <;> decide, rfl⟩
  | ok connected =>
    obtain ⟨⟨key, ssl⟩, reused⟩ := connected
    rw [hconnect] at hwire
    dsimp only at hwire ⊢
    split_ifs at hwire ⊢ with hcrlf
    · exact ⟨by simp, rfl⟩
    · cases hcustom : customHeaders req.headers with
      | none => exact ⟨by simp, rfl⟩
      | some custom =>
        rw [hcustom] at hwire
        dsimp only at hwire ⊢
        rw [Option.map_eq_none_iff.mp hwire]
        exact ⟨by simp, rfl⟩

/-! ### The message is well formed -/

theorem isToken_of_validToken {s : Bytes} (h : Abi.validToken s = true) : isToken s = true := by
  rw [Abi.validToken, Bool.and_eq_true, decide_eq_true_eq] at h
  unfold isToken
  rw [Bool.and_eq_true, Bool.not_eq_true', List.isEmpty_eq_false_iff]
  exact h

theorem all_isValueByte {s : Bytes} (hcrlf : Abi.containsCrlf s = false) (hnul : (0 : UInt8) ∉ s) :
    s.all isValueByte = true := by
  rw [Abi.containsCrlf, List.any_eq_false] at hcrlf
  rw [List.all_eq_true]
  intro c hc
  have hline := hcrlf c hc
  have hne : c ≠ 0 := ne_of_mem_of_not_mem hc hnul
  simp only [Bool.or_eq_true, beq_iff_eq, not_or] at hline
  simp [isValueByte, hline, hne]

theorem lower_eq_of_isNamed {name : String} {f : RequestReader.Field} (h : f.isNamed name = true) :
    lower f.name = ascii name := by
  simpa [RequestReader.Field.isNamed] using h

/-- A forwarded header has none of the names that decide how a message is read. -/
theorem not_isNamed_of_forwarded {headers : List Header} {h : Header} (hmem : h ∈ forwarded headers)
    {name : String} (hname : ownedHeader (ascii name) = true) : (fieldOf h).isNamed name = false := by
  rw [← Bool.not_eq_true]
  intro hnamed
  have hlower := lower_eq_of_isNamed hnamed
  have howned := (List.mem_filter.mp hmem).2
  rw [show lower h.name = ascii name from hlower, hname] at howned
  cases howned

/-- Fields behind those of the engine that have another name. -/
theorem filter_isNamed_append {name : String} {headers : List Header}
    (hname : ownedHeader (ascii name) = true) (front : List Header) :
    ((front ++ forwarded headers).map fieldOf).filter (RequestReader.Field.isNamed name) =
      (front.map fieldOf).filter (RequestReader.Field.isNamed name) := by
  rw [List.map_append, List.filter_append]
  have hnone : ((forwarded headers).map fieldOf).filter (RequestReader.Field.isNamed name) = [] := by
    rw [List.filter_eq_nil_iff]
    intro f hf
    obtain ⟨h, hmem, rfl⟩ := List.mem_map.mp hf
    simp [not_isNamed_of_forwarded hmem hname]
  rw [hnone, List.append_nil]

theorem isDigit_of_digitVal : ∀ c : UInt8, (digitVal 10 c).isSome → isDigit c = true := by
  decide +kernel

theorem isValueByte_of_isDigit : ∀ c : UInt8, isDigit c = true → isValueByte c = true := by
  decide +kernel

theorem decimal_all_isDigit (n : ℕ) : (decimal n).all isDigit = true := by
  rw [List.all_eq_true]
  exact fun c hc => isDigit_of_digitVal c (decimal_allDigits n c hc)

theorem not_isBlank_of_isDigit : ∀ c : UInt8, isDigit c = true → isBlank c = false := by
  decide +kernel

theorem trimBlanks_decimal (n : ℕ) : trimBlanks (decimal n) = decimal n := by
  refine trimBlanks_eq_self fun c hc => not_isBlank_of_isDigit c ?_
  exact List.all_eq_true.mp (decimal_all_isDigit n) c hc

theorem isValueByte_of_noControls : ∀ c : UInt8, (!(c ≤ 0x20 || c == 0x7f)) = true →
    isValueByte c = true := by
  decide +kernel

section

variable {req : Request}

theorem isValueByte_of_validHost (hhost : Abi.validHost req.host = true) :
    ∀ c ∈ req.host, isValueByte c = true := by
  rw [Abi.validHost, Bool.and_eq_true, Abi.noControls, List.all_eq_true] at hhost
  exact fun c hc => isValueByte_of_noControls c (hhost.2 c hc)

/-- The bytes of `host_hdr` are those of the host and of the port. -/
theorem mem_hostHeader {c : UInt8} (hc : c ∈ hostHeader req) :
    c ∈ req.host ∨ c = 58 ∨ isDigit c = true := by
  unfold hostHeader at hc
  split_ifs at hc
  · simp only [List.mem_append] at hc
    rcases hc with (hc | hc) | hc
    · exact .inl hc
    · exact .inr (.inl (List.mem_singleton.mp hc))
    · exact .inr (.inr (List.all_eq_true.mp (decimal_all_isDigit _) c hc))
  · exact .inl hc

theorem hostHeader_all (hbytes : ∀ c ∈ req.host, isValueByte c = true) :
    (hostHeader req).all isValueByte = true := by
  rw [List.all_eq_true]
  intro c hc
  rcases mem_hostHeader hc with hhost | rfl | hdigit
  · exact hbytes c hhost
  · decide
  · exact isValueByte_of_isDigit c hdigit

/-- The engine's own headers. -/
theorem mem_engineHeaders {h : Header} (hmem : h ∈ engineHeaders req) :
    h = ⟨ascii "Host", hostHeader req⟩ ∨ h = ⟨ascii "User-Agent", ascii "asternet/0.1"⟩ ∨
      h = ⟨ascii "Connection", ascii "keep-alive"⟩ ∨
      h = ⟨ascii "Content-Length", decimal req.body.length⟩ := by
  unfold engineHeaders at hmem
  rcases List.mem_append.mp hmem with hmem | hmem
  · rcases List.mem_cons.mp hmem with hmem | hmem
    · exact .inl hmem
    · rcases List.mem_cons.mp hmem with hmem | hmem
      · exact .inr (.inl hmem)
      · exact .inr (.inr (.inl (List.mem_singleton.mp hmem)))
  · split_ifs at hmem
    · cases hmem
    · exact .inr (.inr (.inr (List.mem_singleton.mp hmem)))

theorem engineHeaders_name {h : Header} (hmem : h ∈ engineHeaders req) : isToken h.name = true := by
  rcases mem_engineHeaders hmem with rfl | rfl | rfl | rfl
  · exact (by decide : isToken (ascii "Host") = true)
  · exact (by decide : isToken (ascii "User-Agent") = true)
  · exact (by decide : isToken (ascii "Connection") = true)
  · exact (by decide : isToken (ascii "Content-Length") = true)

theorem engineHeaders_value (hbytes : ∀ c ∈ req.host, isValueByte c = true) {h : Header}
    (hmem : h ∈ engineHeaders req) : h.value.all isValueByte = true := by
  rcases mem_engineHeaders hmem with rfl | rfl | rfl | rfl
  · exact hostHeader_all hbytes
  · decide
  · decide
  · rw [List.all_eq_true]
    exact fun c hc => isValueByte_of_isDigit c (List.all_eq_true.mp (decimal_all_isDigit _) c hc)

theorem filter_host (req : Request) :
    ((engineHeaders req).map fieldOf).filter (RequestReader.Field.isNamed "host") =
      [⟨ascii "Host", hostHeader req⟩] := by
  unfold engineHeaders
  split_ifs
  · rfl
  · rfl

theorem filter_contentLength (req : Request) :
    ((engineHeaders req).map fieldOf).filter (RequestReader.Field.isNamed "content-length") =
      if req.body = [] then [] else [⟨ascii "Content-Length", decimal req.body.length⟩] := by
  unfold engineHeaders
  split_ifs
  · rfl
  · rfl

theorem filter_transferEncoding (req : Request) :
    ((engineHeaders req).map fieldOf).filter (RequestReader.Field.isNamed "transfer-encoding") = [] := by
  unfold engineHeaders
  split_ifs
  · rfl
  · rfl

/-- The fields announce the body. -/
theorem bodyLength_message (req : Request) (headers : List Header) :
    bodyLength (message req (forwarded headers)).trimmed.fields = some req.body.length := by
  -- the names of the fields are not changed by trimming
  have htrim : ∀ (name : String) (fields : List RequestReader.Field),
      (fields.map RequestReader.Field.trimmed).filter (RequestReader.Field.isNamed name) =
        (fields.filter (RequestReader.Field.isNamed name)).map RequestReader.Field.trimmed := by
    intro name fields
    rw [List.filter_map]
    rfl
  -- no coding is announced, and the only length is the engine's
  have hcoding : ((message req (forwarded headers)).trimmed.fields).any
      (RequestReader.Field.isNamed "transfer-encoding") = false := by
    rw [List.any_eq_false, ← List.filter_eq_nil_iff]
    show (((engineHeaders req ++ forwarded headers).map fieldOf).map
      RequestReader.Field.trimmed).filter _ = []
    rw [htrim, filter_isNamed_append (by decide), filter_transferEncoding]
    rfl
  have hlength : ((message req (forwarded headers)).trimmed.fields).filter
      (RequestReader.Field.isNamed "content-length") =
      if req.body = [] then [] else [⟨ascii "Content-Length", decimal req.body.length⟩] := by
    show (((engineHeaders req ++ forwarded headers).map fieldOf).map
      RequestReader.Field.trimmed).filter _ = _
    rw [htrim, filter_isNamed_append (by decide), filter_contentLength]
    split_ifs
    · rfl
    · simp only [List.map_cons, List.map_nil, RequestReader.Field.trimmed, trimBlanks_decimal]
  unfold bodyLength
  rw [hcoding, if_neg (by simp), hlength]
  -- an empty body is not announced, and zero is read for it
  by_cases hbody : req.body = []
  · rw [if_pos hbody, hbody]
    rfl
  · have hne : (decimal req.body.length).isEmpty = false :=
      List.isEmpty_eq_false_iff.mpr (decimal_ne_nil _)
    rw [if_neg hbody]
    dsimp only
    rw [hne, decimal_all_isDigit, digitsValue_decimal]
    rfl

/-- **A request the C interface accepted is a well-formed message.** -/
theorem wellFormed_message (hacc : Abi.Accepted req) (hnul : ∀ h ∈ req.headers, (0 : UInt8) ∉ h.value) :
    (message req (forwarded req.headers)).WellFormed where
  method := isToken_of_validToken hacc.method
  target_ne := by
    -- the path is not empty and has no byte that ends it
    have hpath := hacc.path
    rw [Abi.validPath, Bool.and_eq_true, decide_eq_true_eq] at hpath
    intro hnil
    rw [show req.path = [] from hnil] at hpath
    cases hpath.1
  target := by
    have hpath := hacc.path
    rw [Abi.validPath, Bool.and_eq_true] at hpath
    exact hpath.2
  names := by
    intro f hf
    obtain ⟨h, hmem, rfl⟩ := List.mem_map.mp hf
    -- the fields of the engine, and those that were passed in
    rcases List.mem_append.mp hmem with hmem | hmem
    · exact engineHeaders_name hmem
    · exact isToken_of_validToken (hacc.headers h (List.mem_of_mem_filter hmem)).token
  values := by
    intro f hf
    obtain ⟨h, hmem, rfl⟩ := List.mem_map.mp hf
    rcases List.mem_append.mp hmem with hmem | hmem
    · exact engineHeaders_value (isValueByte_of_validHost hacc.host) hmem
    · have hmem := List.mem_of_mem_filter hmem
      exact all_isValueByte (hacc.headers h hmem).no_crlf (hnul h hmem)
  -- the engine's own host field is the only one
  host := by
    show (((engineHeaders req ++ forwarded req.headers).map fieldOf).filter _).length = 1
    rw [filter_isNamed_append (by decide), filter_host]
    rfl
  body := bodyLength_message req req.headers

/-- The requests that are written are those whose response is read. -/
theorem exists_wire_iff {dial : Dial} {engine : Http1Engine} :
    (∃ bytes, wire dial engine req = some bytes) ↔ ∃ source, Sent dial engine req source := by
  constructor
  · rintro ⟨bytes, hwire⟩
    unfold wire at hwire
    split at hwire
    · cases hwire
    · rename_i key ssl reused hc
      split_ifs at hwire with hcrlf
      split at hwire
      · cases hwire
      · rename_i custom hcustom
        obtain ⟨after, hwrite, -⟩ := Option.map_eq_some_iff.mp hwire
        exact ⟨ssl.source, Bool.eq_false_iff.mpr hcrlf, key, ssl, reused, custom, after, hc, hcustom,
          hwrite, rfl⟩
  · rintro ⟨source, hclean, key, ssl, reused, custom, after, hc, hcustom, hwrite, -⟩
    unfold wire
    rw [hc]
    dsimp only
    rw [if_neg (Bool.eq_false_iff.mp hclean), hcustom]
    dsimp only
    rw [hwrite]
    exact ⟨_, rfl⟩

/-- A request is written where the connection is there and takes everything. -/
theorem wire_isSome (hacc : Abi.Accepted req) {dial : Dial} {engine : Http1Engine} {key : PoolKey}
    {ssl : Ssl} {reused : Bool}
    (hc : ensureConnection dial engine.settings engine.connection req = .ok ((key, ssl), reused))
    (hendpoint : hasCrlf req.connectHost = false) (hwrites : .failed ∉ ssl.writes) :
    ∃ bytes, wire dial engine req = some bytes := by
  obtain ⟨after, hwrite⟩ : ∃ after, writeAll (requestText req (forwarded req.headers)) ssl = some after :=
    writeAll_isSome hwrites
  exact exists_wire_iff.mpr ⟨ssl.source, not_crlf_of_accepted hacc hendpoint, key, ssl, reused,
    forwarded req.headers, after, hc, http1_customHeaders_of_accepted hacc.headers, hwrite, rfl⟩

/-- Of a request that is written, the connection got the text. -/
theorem wire_eq {dial : Dial} {engine : Http1Engine} {bytes : Bytes}
    (hwire : wire dial engine req = some bytes) :
    ∃ custom, customHeaders req.headers = some custom ∧ bytes = requestText req custom := by
  unfold wire at hwire
  split at hwire
  · cases hwire
  · split_ifs at hwire
    split at hwire
    · cases hwire
    · case h_2 custom hcustom =>
      obtain ⟨after, hwrite, rfl⟩ := Option.map_eq_some_iff.mp hwire
      refine ⟨custom, hcustom, ?_⟩
      rw [(writeAll_some hwrite).1, List.drop_left]

end

end Http1

end AsterNet
