import AsterNet.Client.Equiv.Carries
import AsterNet.Engine.Http1.Equiv.Serialize

/-!
# From the C interface to the wire

* `serializes_one_message`: every HTTP/1.1 attempt at a request the C interface accepts is written as one
  message, whatever its headers and its body look like.

The attempts of a request are about its own message (`Client.keeps_requestWithPolicy`), and the text of
that message is read back (`RequestReader.read_text`).
-/

namespace AsterNet

namespace Abi

open ByteString

/-- The authority of a request, without the port when it is 443 or 80. -/
def hostField (req : Request) : Bytes :=
  if req.port = 443 ∨ req.port = 80 then req.host
  else req.host ++ ascii ":" ++ decimal req.port.toNat

/-- The message a server should get for a request. -/
def expectedMessage (req : Request) : RequestReader.Message where
  method := req.method
  target := req.path
  fields :=
    [⟨ascii "Host", hostField req⟩, ⟨ascii "User-Agent", ascii "asternet/0.1"⟩,
      ⟨ascii "Connection", ascii "keep-alive"⟩] ++
    (if req.body = [] then [] else [⟨ascii "Content-Length", decimal req.body.length⟩]) ++
    (forwarded req.headers).map fun h => ⟨h.name, trimBlanks h.value⟩
  body := req.body

theorem hostHeader_eq_hostField (req : Request) : Http1.hostHeader req = hostField req := by
  unfold Http1.hostHeader hostField
  by_cases h : req.port = 443 ∨ req.port = 80
  · rw [if_pos h, if_neg (by tauto)]
  · rw [if_neg h, if_pos (by tauto)]

theorem isBlank_of_noControls : ∀ c : UInt8, (!(c ≤ 0x20 || c == 0x7f)) = true → isBlank c = false := by
  decide +kernel

theorem trimBlanks_hostField {req : Request} (hhost : validHost req.host = true) :
    trimBlanks (hostField req) = hostField req := by
  have hbytes : ∀ c ∈ req.host, isBlank c = false := by
    rw [validHost, Bool.and_eq_true, noControls, List.all_eq_true] at hhost
    exact fun c hc => isBlank_of_noControls c (hhost.2 c hc)
  refine trimBlanks_eq_self fun c hc => ?_
  unfold hostField at hc
  split_ifs at hc
  · exact hbytes c hc
  · simp only [List.mem_append] at hc
    rcases hc with (hc | hc) | hc
    · exact hbytes c hc
    · exact (by decide +kernel : ∀ c ∈ ascii ":", isBlank c = false) c hc
    · have hdigit := List.all_eq_true.mp (Http1.decimal_all_isDigit req.port.toNat) c hc
      exact Http1.not_isBlank_of_isDigit c hdigit

/-- Reading takes only the blanks around the custom values away. -/
theorem trimmed_message {req : Request} (hhost : validHost req.host = true) :
    (Http1.message req (forwarded req.headers)).trimmed = expectedMessage req := by
  -- of the engine's own fields only the host could begin or end with blanks, and it does not
  have hengine : ((Http1.engineHeaders req).map Http1.fieldOf).map RequestReader.Field.trimmed =
      [⟨ascii "Host", hostField req⟩, ⟨ascii "User-Agent", ascii "asternet/0.1"⟩,
        ⟨ascii "Connection", ascii "keep-alive"⟩] ++
      (if req.body = [] then [] else [⟨ascii "Content-Length", decimal req.body.length⟩]) := by
    have hfirst : RequestReader.Field.trimmed (Http1.fieldOf ⟨ascii "Host", Http1.hostHeader req⟩) =
        ⟨ascii "Host", hostField req⟩ := by
      rw [hostHeader_eq_hostField]
      exact congrArg (RequestReader.Field.mk _) (trimBlanks_hostField hhost)
    have hlength : RequestReader.Field.trimmed (Http1.fieldOf
        ⟨ascii "Content-Length", decimal req.body.length⟩) =
        ⟨ascii "Content-Length", decimal req.body.length⟩ :=
      congrArg (RequestReader.Field.mk _) (Http1.trimBlanks_decimal _)
    -- a request without a body has no length
    unfold Http1.engineHeaders
    split_ifs
    · simp only [List.map_append, List.map_cons, List.map_nil, hfirst]
      rfl
    · simp only [List.map_append, List.map_cons, List.map_nil, hfirst, hlength]
      rfl
  have hfields : ((Http1.engineHeaders req ++ forwarded req.headers).map Http1.fieldOf).map
      RequestReader.Field.trimmed = (expectedMessage req).fields := by
    rw [List.map_append, List.map_append, hengine, List.map_map]
    rfl
  unfold RequestReader.Message.trimmed Http1.message
  rw [hfields]
  rfl

section

variable {req base : Request}

theorem accepted_of_sameMessage (hreq : req.SameMessage base) (hacc : Accepted base) : Accepted req where
  host := hreq.host ▸ hacc.host
  method := hreq.method ▸ hacc.method
  path := hreq.path ▸ hacc.path
  headers := hreq.headers ▸ hacc.headers

theorem expectedMessage_of_sameMessage (hreq : req.SameMessage base) :
    expectedMessage req = expectedMessage base := by
  unfold expectedMessage hostField
  rw [hreq.host, hreq.port, hreq.method, hreq.path, hreq.headers, hreq.body]

end

/-- What is written for an accepted message is read as this message, whatever follows it. -/
theorem read_wire {req : Request} (hacc : Accepted req) (hnul : ∀ h ∈ req.headers, (0 : UInt8) ∉ h.value)
    {dial : Http1.Dial} {engine : Http1.Http1Engine} {bytes : Bytes}
    (hwire : Http1.wire dial engine req = some bytes) (rest : Bytes) :
    RequestReader.read (bytes ++ rest) = some (expectedMessage req, rest) := by
  obtain ⟨custom, hcustom, rfl⟩ := Http1.wire_eq hwire
  rw [http1_customHeaders_of_accepted hacc.headers] at hcustom
  obtain rfl := Option.some.inj hcustom
  rw [Http1.requestText_eq, RequestReader.read_text (Http1.wellFormed_message hacc hnul),
    trimmed_message hacc.host]

/-- **One accepted request is one message on the wire.** -/
theorem serializes_one_message {config : AbiConfig} {request : AbiRequest} {accepted : Request}
    (hacc : internalRequest config request = some accepted) :
    (∀ {σ : Type} (env : ClientEnv σ) (clientConfig : ClientConfig) (policy : ProtocolPolicy)
      (resp : Response) (w : World σ) (type : EngineType) (attempt : Request),
      .engineRequest type attempt ∈
        (Client.requestWithPolicy env clientConfig accepted policy resp w).events →
      attempt.SameMessage accepted) ∧
    ∀ (attempt : Request), attempt.SameMessage accepted →
    ∀ (dial : Http1.Dial) (engine : Http1.Http1Engine),
      (∀ key ssl reused,
        ensureConnection dial engine.settings engine.connection attempt = .ok ((key, ssl), reused) →
        Http1.hasCrlf attempt.connectHost = false → .failed ∉ ssl.writes →
        ∃ bytes, Http1.wire dial engine attempt = some bytes) ∧
      ∀ bytes, Http1.wire dial engine attempt = some bytes → ∀ rest,
        RequestReader.read (bytes ++ rest) = some (expectedMessage accepted, rest) := by
  have hok := accepted_of_internalRequest hacc
  refine ⟨?_, fun attempt hsame dial engine => ?_⟩
  -- in the pipeline no engine is asked for another message
  · intro σ env clientConfig policy resp w type attempt hmem
    -- the epoch was never read, or was read once
    rcases Client.keeps_requestWithPolicy (env.keeps_true accepted) clientConfig policy resp w trivial
      with ⟨-, hevents⟩ | ⟨epoch, -, hevents⟩
    · exact (hevents _ hmem 0).1
    · exact (hevents _ hmem).1
  -- on the connection the engine writes the one message that the reader takes back
  · have hacc' := accepted_of_sameMessage hsame hok
    have hnul : ∀ h ∈ attempt.headers, (0 : UInt8) ∉ h.value := by
      rw [hsame.headers]
      exact forall_mem_of_acceptHeaders no_nul_of_acceptHeader (acceptHeaders_of_internalRequest hacc)
    refine ⟨fun key ssl reused hc hendpoint hwrites =>
      Http1.wire_isSome hacc' hc hendpoint hwrites, fun bytes hwire rest => ?_⟩
    rw [← expectedMessage_of_sameMessage hsame]
    exact read_wire hacc' hnul hwire rest

/-- A C string of some text. -/
def cString (s : String) (h : (ascii s).all (· != 0) = true) : CString where
  bytes := ascii s
  no_nul hmem := by simpa using List.all_eq_true.mp h 0 hmem

/-- A `POST` whose body looks like a request of its own. -/
def postSmuggling : AbiRequest where
  host := some (cString "h" rfl)
  port := 8443
  method := some (cString "POST" rfl)
  path := some (cString "/" rfl)
  headers := some [⟨some (cString "Accept" rfl), some (cString " a" rfl)⟩]
  headerCount := 1
  body := some (ascii "GET / HTTP/1.1" ++ crlf ++ crlf)
  bodyLen := 18

theorem serializes_one_message_post :
    ∃ bytes, Http1.wire (fun _ _ => .ok { source := ⟨[], .eof⟩ }) {} (acceptedOf postSmuggling) =
        some bytes ∧
      ∀ rest, RequestReader.read (bytes ++ rest) =
        some (expectedMessage (acceptedOf postSmuggling), rest) := by
  have hacc : internalRequest {} postSmuggling = some (acceptedOf postSmuggling) := by decide +kernel
  obtain ⟨hwrite, hread⟩ := (serializes_one_message hacc).2 _ ⟨rfl, rfl, rfl, rfl, rfl, rfl⟩
    (fun _ _ => .ok { source := ⟨[], .eof⟩ }) {}
  obtain ⟨bytes, hbytes⟩ := hwrite _ _ _ rfl (by decide +kernel) (by decide)
  exact ⟨bytes, hbytes, hread bytes hbytes⟩

end Abi

end AsterNet
