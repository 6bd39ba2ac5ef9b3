import AsterNet.Abi.Abi
import AsterNet.Engine.Http1.Equiv.Body
import AsterNet.Engine.Http1.Equiv.Head
import AsterNet.Engine.Http1.Equiv.Request

/-!
# Well-formed responses are delivered

`delivers_iff_sizesFit`: the engine delivers a well-formed response, in any segmentation of the
stream, if and only if the arithmetic on the configured limit does not go wrong for it (`SizesFit`).
The header phase is `readHead_sections`, the scan `scanHeaders_of_announcedBy`; `takesBody_iff` puts
the framings of `Equiv.Body` together.

`delivers_of_limit` is the case of the limits to which the room for the coding can be added, where nothing
wraps; the limits the C interface sets are among them (`maxBodyOf_lt`).
-/

namespace AsterNet

namespace Http1

open ByteString Segmented

/-- Some read of `sizeof(buf)` bytes ends exactly behind `bytes`. -/
def ReadEndsAt (source : Source) (bytes : Bytes) : Prop := ∃ rest, Reads bufSize source bytes rest

/-- The arithmetic on the limit does not go wrong.  A chunked message must be within the limit as
`size_t` adds to it; a body read to the end of the stream (a length of `2^64 - 1` counts as none) must
not start, under the largest limit, with a read of `0` bytes. -/
def SizesFit (req : Request) (m : Message req.method) (source : Source) : Prop :=
  NoBody req.method m.final.status = true ∨
  match m.framing with
  | .chunked => m.payload.length ≤ codedLimit (maxBodyOf req)
  | .contentLength n =>
    n = npos → m.final.fields.any Field.closes = true ∧ ¬ ReadEndsAt source m.headerBytes
  | .close => maxBodyOf req = npos → m.body = [] ∨ ¬ ReadEndsAt source m.headerBytes

/-- The engine answers with the response and keeps the connection exactly when the response lets it. -/
def Delivers (dial : Dial) (engine : Http1Engine) (req : Request) (m : Message req.method) : Prop :=
  (request dial engine req).1.errCode = .ok ∧
  (request dial engine req).1.httpStatus = m.final.status ∧
  (request dial engine req).1.body = m.body ∧
  ((request dial engine req).2.connection.isSome ↔ m.persists = true)

/-! ### The phases over a well-formed response -/

theorem noBodyStatus_eq (req : Request) (status : ℕ) :
    noBodyStatus req status = NoBody req.method status := by
  have h204 : ((status : ℤ) = 204) = (status = 204) := by
    apply propext
    omega
  have h304 : ((status : ℤ) = 304) = (status = 304) := by
    apply propext
    omega
  simp only [noBodyStatus, NoBody, h204, h304]

section

variable {req : Request} (m : Message req.method) {source : Source}

/-- The header phase, and what it read beyond the sections: nothing, exactly when a read ends behind
them. -/
theorem readHead_message (hbytes : source.bytes = m.bytes)
    (hsections : SectionsFit source 0 m.sections) :
    ∃ body source', readHead [] 0 [] source =
        .ok ⟨m.sections.map Section.bytes, m.final.status, m.final.headers, body, source'⟩ ∧
      body ++ source'.bytes = m.payload ∧ source'.ending = source.ending ∧
      (body = [] ↔ ReadEndsAt source m.headerBytes) := by
  -- an interim section is taken off and the next one read, up to the final one
  have hstream : ([] : Bytes) ++ source.bytes = m.sections.flatMap Section.bytes ++ m.payload := hbytes
  obtain ⟨body, source', hpayload, hread⟩ := (readHead_sections [] 0 m.interim_status
    m.final_status.1 (.done source) rfl (by decide) hstream).1 hsections
  change readHead [] 0 [] source =
    .ok ⟨m.sections.map Section.bytes, m.final.status, m.final.headers, body, source'⟩ at hread
  have spec := readHead_spec hread
  have hflat : (m.sections.map Section.bytes).flatten = m.headerBytes := by
    rw [Message.headerBytes, List.flatMap_def]
  refine ⟨body, source', hread, hpayload, spec.ending, ?_⟩
  constructor
  -- then the last read of the head ended with the sections
  · rintro rfl
    obtain ⟨d, hd, heq⟩ := spec.reads
    dsimp only at hd heq
    simp only [List.flatten_nil, List.nil_append, List.append_nil, hflat] at heq
    exact ⟨source', heq ▸ hd⟩
  · -- no read of the head can have ended where the body begins
    rintro ⟨rest, hr⟩
    by_contra hne
    have hpos := List.length_pos_of_ne_nil hne
    have hlt := spec.boundary m.headerBytes rest hr
    dsimp only at hlt
    simp only [List.flatten_nil, List.nil_append, List.length_append, hflat] at hlt
    omega

theorem sectionsFit_of_message (hbytes : source.bytes = m.bytes)
    (hsections : ∀ σ ∈ m.sections, σ.bytes.length ≤ maxSection) : SectionsFit source 0 m.sections := by
  refine sectionsFit_of_le hsections ?_
  rw [hbytes, Message.bytes, Message.headerBytes, List.length_append]
  omega

/-- A framing announces at most `SIZE_MAX` bytes. -/
theorem Message.cl_le (hbody : m.body.length ≤ maxBodyOf req) : m.framing.cl ≤ ullongMax := by
  have hmax := maxBodyOf_le req
  cases hf : m.framing with
  | chunked => exact le_rfl
  | close => exact le_rfl
  | contentLength n =>
    have hframes := m.frames
    rw [hf] at hframes
    unfold Framing.Frames at hframes
    split_ifs at hframes with hnone
    · exact hframes.2.2 n rfl
    · have hle : m.body.length ≤ ullongMax := hbody.trans hmax
      rw [Framing.cl, hframes.1]
      exact hle

/-- The scan of the final section. -/
def scanOf : Scan :=
  { chunked := decide (m.framing = .chunked), connectionClose := m.final.fields.any Field.closes
    cl := m.framing.cl }

/-- What the head of the response looks like to the body phase. -/
structure AtBody (head : Head) (source : Source) : Prop where
  status : head.httpStatus = m.final.status
  payload : head.body ++ head.source.bytes = m.payload
  readEnds : head.body = [] ↔ ReadEndsAt source m.headerBytes

/-- The body phase takes the body, and the connection is kept as the response lets it. -/
def TakesBody (head : Head) : Prop :=
  (∃ b, readBody req head (scanOf m) = .ok b ∧ b.body = m.body) ∧
    keepsConnection req head (scanOf m) = m.persists

variable {m} {head : Head}

theorem takesBody_of_noBody (h : AtBody m head source)
    (hnone : NoBody req.method m.final.status = true) : TakesBody m head := by
  have hstatus : noBodyStatus req head.httpStatus = true := by
    rw [h.status, noBodyStatus_eq, hnone]
  have hframes := m.frames
  unfold Framing.Frames at hframes
  rw [if_pos hnone] at hframes
  obtain ⟨hbody, hpayload, -⟩ := hframes
  have hnil := h.payload
  rw [hpayload, List.append_eq_nil_iff] at hnil
  constructor
  · refine ⟨⟨[], [], head.source, false⟩, ?_, hbody.symm⟩
    unfold readBody
    dsimp only
    rw [if_pos hstatus]
    exact takeNoBody_ok_iff.mpr ⟨hnil.1, rfl⟩
  · rw [keepsConnection, Message.persists, hstatus, hnone]
    simp

/-- A chunked body is read by the chunked loop. -/
theorem readBody_of_chunked (h : AtBody m head source)
    (hsome : NoBody req.method m.final.status = false) (hf : m.framing = .chunked)
    (hmax : m.body.length ≤ maxBodyOf req) :
    readBody req head (scanOf m) = readChunked (maxBodyOf req) head.body head.source ∧
      IsCoding m.payload m.body := by
  have hstatus : noBodyStatus req head.httpStatus = false := by
    rw [h.status, noBodyStatus_eq, hsome]
  constructor
  · unfold readBody
    dsimp only
    rw [if_neg (by rw [hstatus]; simp), if_pos (by simp [scanOf, hf])]
    rfl
  · have hframes := m.frames
    rw [hf] at hframes
    unfold Framing.Frames at hframes
    rw [if_neg (by rw [hsome]; simp)] at hframes
    obtain ⟨c, hbody, hbytes⟩ := hframes
    rw [← hbody, ← hbytes]
    exact c.isCoding (by rw [hbody]; exact hmax.trans (maxBodyOf_le req))

/-- The chunked loop succeeds when the coding is within the limit. -/
theorem readBody_chunked_isOk_iff (h : AtBody m head source)
    (hsome : NoBody req.method m.final.status = false) (hf : m.framing = .chunked)
    (hmax : m.body.length ≤ maxBodyOf req) :
    (∃ b, readBody req head (scanOf m) = .ok b) ↔ m.payload.length ≤ codedLimit (maxBodyOf req) := by
  obtain ⟨hread, hcoding⟩ := readBody_of_chunked h hsome hf hmax
  rw [hread]
  exact readChunked_of_isCoding hcoding h.payload hmax

theorem takesBody_of_chunked (h : AtBody m head source)
    (hsome : NoBody req.method m.final.status = false) (hf : m.framing = .chunked)
    (hmax : m.body.length ≤ maxBodyOf req) :
    TakesBody m head ↔ m.payload.length ≤ codedLimit (maxBodyOf req) := by
  obtain ⟨hread, hcoding⟩ := readBody_of_chunked h hsome hf hmax
  have hkeep : keepsConnection req head (scanOf m) = m.persists := by
    rw [keepsConnection, Message.persists, h.status, noBodyStatus_eq, hsome]
    simp [scanOf, hf]
  rw [TakesBody, ← readBody_chunked_isOk_iff h hsome hf hmax]
  constructor
  · rintro ⟨⟨b, hb, -⟩, -⟩
    exact ⟨b, hb⟩
  · rintro ⟨b, hb⟩
    refine ⟨⟨b, hb, ?_⟩, hkeep⟩
    rw [hread] at hb
    -- both codings begin the same stream
    obtain ⟨-, -, hcoding', rest, d, hd, hreads, -⟩ := readChunked_ok hb
    have hpayload : m.payload = b.message ++ (rest ++ b.source.bytes) := by
      rw [← h.payload, hreads.bytes_eq, ← List.append_assoc, hd, List.append_assoc]
    rw [← List.append_nil m.payload] at hpayload
    exact (hcoding'.unique hcoding hpayload.symm).2

/-- The two framings without chunks put the body behind the header sections as it is. -/
theorem readBody_of_not_chunked (h : AtBody m head source)
    (hsome : NoBody req.method m.final.status = false) (hf : m.framing ≠ .chunked) :
    readBody req head (scanOf m) =
        (if m.framing.cl ≠ npos then readLength (maxBodyOf req) m.framing.cl head.body head.source
        else readToEnd (maxBodyOf req) head.body head.source) ∧
      keepsConnection req head (scanOf m) =
        (!m.final.fields.any Field.closes && decide (m.framing.cl ≠ npos)) := by
  have hstatus : noBodyStatus req head.httpStatus = false := by
    rw [h.status, noBodyStatus_eq, hsome]
  constructor
  · unfold readBody
    dsimp only
    rw [if_neg (by rw [hstatus]; simp), if_neg (by simp [scanOf, hf])]
    rfl
  · rw [keepsConnection, hstatus]
    simp [scanOf, hf, beq_eq_decide]

/-- The loop to the end of the stream takes the body, unless it starts with a read of `0` bytes. -/
theorem readToEnd_iff (h : AtBody m head source) (hpayload : m.payload = m.body)
    (hmax : m.body.length ≤ maxBodyOf req) :
    (∃ b, readToEnd (maxBodyOf req) head.body head.source = .ok b ∧ b.body = m.body) ↔
      (maxBodyOf req = npos → m.body = [] ∨ ¬ ReadEndsAt source m.headerBytes) := by
  have hall : head.body ++ head.source.bytes = m.body := h.payload.trans hpayload
  by_cases hwrap : maxBodyOf req = npos ∧ head.body = []
  · -- the limit plus one is zero, so nothing is read
    obtain ⟨hnpos, hnil⟩ := hwrap
    obtain ⟨readFailed, hread, -⟩ := readToEnd_of_wrap head.source
    have hends : ReadEndsAt source m.headerBytes := h.readEnds.mp hnil
    rw [hnpos, hnil, hread]
    constructor
    · rintro ⟨b, hb, hbody⟩ -
      obtain rfl := Except.ok.inj hb
      exact .inl hbody.symm
    · intro hor
      have hempty := (hor rfl).resolve_right (not_not.mpr hends)
      exact ⟨_, rfl, hempty.symm⟩
  -- one byte beyond the limit would still be read, and there is none
  · have hne : maxBodyOf req = npos → head.body ≠ [] := fun hm hnil => hwrap ⟨hm, hnil⟩
    have hle : (head.body ++ head.source.bytes).length ≤ maxBodyOf req := by
      rwa [hall]
    obtain ⟨rest, hread⟩ := readToEnd_of_le (maxBodyOf_le req) hne hle
    rw [hread]
    constructor
    · intro _ hm
      exact .inr fun hends => hne hm (h.readEnds.mpr hends)
    · intro _
      exact ⟨_, rfl, hall⟩

theorem takesBody_of_contentLength {n : ℕ} (h : AtBody m head source)
    (hsome : NoBody req.method m.final.status = false) (hf : m.framing = .contentLength n)
    (hmax : m.body.length ≤ maxBodyOf req) :
    TakesBody m head ↔ (n = npos → m.final.fields.any Field.closes = true ∧
      ¬ ReadEndsAt source m.headerBytes) := by
  -- the scan takes the value `npos` for an absent length
  obtain ⟨hread, hkeep⟩ := readBody_of_not_chunked h hsome (by rw [hf]; simp)
  have hframes := m.frames
  rw [hf] at hframes hread hkeep
  unfold Framing.Frames at hframes
  rw [if_neg (by rw [hsome]; simp)] at hframes
  obtain ⟨hn, hpayload⟩ := hframes
  have hpersists : m.persists = !m.final.fields.any Field.closes := by
    rw [Message.persists, hsome, hf]
    simp
  rw [TakesBody, hread, hkeep, hpersists, Framing.cl]
  by_cases hnpos : n = npos
  · -- the length is taken for its absence: the body is read to the end and the connection closed
    have hnpos' : maxBodyOf req = npos := le_antisymm (maxBodyOf_le req) (by omega)
    have hne : m.body ≠ [] := by
      intro hnil
      rw [hnpos, hnil] at hn
      cases hn
    rw [if_neg (not_not.mpr hnpos), readToEnd_iff h hpayload hmax]
    simp [hnpos, hnpos', hne, and_comm]
  · rw [if_pos hnpos]
    have hok : (∃ b, readLength (maxBodyOf req) n head.body head.source = .ok b) ↔
        n ≤ maxBodyOf req ∧ head.body.length ≤ n ∧ n ≤ (head.body ++ head.source.bytes).length :=
      readLength_ok_iff
    rw [h.payload, hpayload] at hok
    -- the body read with the head is within the length
    have hle : head.body.length ≤ n := by
      have := congrArg List.length (h.payload.trans hpayload)
      rw [List.length_append] at this
      omega
    obtain ⟨b, hb⟩ := hok.mpr ⟨by omega, hle, hn.le⟩
    obtain ⟨hbody, -⟩ := readLength_ok hb
    rw [h.payload, hpayload, List.take_of_length_le hn.ge] at hbody
    constructor
    · intro _ habs
      exact absurd habs hnpos
    · intro _
      exact ⟨⟨b, hb, hbody⟩, by simp [hnpos]⟩

theorem takesBody_of_close (h : AtBody m head source)
    (hsome : NoBody req.method m.final.status = false) (hf : m.framing = .close)
    (hmax : m.body.length ≤ maxBodyOf req) :
    TakesBody m head ↔
      (maxBodyOf req = npos → m.body = [] ∨ ¬ ReadEndsAt source m.headerBytes) := by
  obtain ⟨hread, hkeep⟩ := readBody_of_not_chunked h hsome (by rw [hf]; simp)
  have hframes := m.frames
  rw [hf] at hframes hread hkeep
  unfold Framing.Frames at hframes
  rw [if_neg (by rw [hsome]; simp)] at hframes
  have hpersists : m.persists = false := by
    rw [Message.persists, hf]
    simp
  have hcl : Framing.close.cl = npos := rfl
  rw [TakesBody, hread, hkeep, hpersists, hcl, if_neg (by simp), readToEnd_iff h hframes hmax]
  simp

/-- **The body phase over a well-formed response.** -/
theorem takesBody_iff (h : AtBody m head source) (hmax : m.body.length ≤ maxBodyOf req) :
    TakesBody m head ↔ SizesFit req m source := by
  unfold SizesFit
  cases hnone : NoBody req.method m.final.status with
  | true => exact iff_of_true (takesBody_of_noBody h hnone) (.inl rfl)
  | false =>
    rw [or_iff_right (by simp)]
    cases hf : m.framing with
    | chunked => exact takesBody_of_chunked h hnone hf hmax
    | contentLength n => exact takesBody_of_contentLength h hnone hf hmax
    | close => exact takesBody_of_close h hnone hf hmax

end

/-! ### The response -/

/-- **Well-formed responses are delivered** in every segmentation of the stream, if and only if the
arithmetic on the limit does not go wrong. -/
theorem delivers_iff_sizesFit {dial : Dial} {engine : Http1Engine} {req : Request} {source : Source}
    (m : Message req.method) (hsent : Sent dial engine req source) (hbytes : source.bytes = m.bytes)
    (hsections : ∀ σ ∈ m.sections, σ.bytes.length ≤ maxSection)
    (hmax : m.body.length ≤ maxBodyOf req) :
    Delivers dial engine req m ↔ SizesFit req m source := by
  -- the head is read as it was sent, in every segmentation
  obtain ⟨body, source', hread, hpayload, -, hends⟩ :=
    readHead_message m hbytes (sectionsFit_of_message m hbytes hsections)
  set head : Head := ⟨m.sections.map Section.bytes, m.final.status, m.final.headers, body, source'⟩
  have hscan : scanHeaders head.headers = scanOf m :=
    scanHeaders_of_announcedBy m.announced (m.cl_le hmax)
  have hat : AtBody m head source := ⟨rfl, hpayload, hends⟩
  obtain ⟨⟨reused, hreply⟩, hconnection⟩ := request_of_sent hsent
  have hsome : (request dial engine req).2.connection.isSome =
      (readResponse req source).2.isSome := by
    rw [← hconnection, Option.isSome_map]
  -- what is left is whether the body is taken
  rw [Delivers, hreply, hsome, ← takesBody_iff hat hmax]
  constructor
  · rintro ⟨hok, -, hbody, hkeep⟩
    obtain ⟨head', b, hread', hinvalid, hb, hlong⟩ := readResponse_ok hok
    obtain rfl := Except.ok.inj (hread.symm.trans hread')
    rw [readResponse_of_ok hread hinvalid hb hlong] at hbody hkeep
    rw [hscan] at hb hkeep
    refine ⟨⟨b, hb, hbody⟩, Bool.eq_iff_iff.mpr ?_⟩
    rw [← hkeep]
    cases keepsConnection req head (scanOf m) <;> simp
  · rintro ⟨⟨b, hb, hbody⟩, hkeep⟩
    rw [← hscan] at hb hkeep
    have hinvalid : (scanHeaders head.headers).invalid = false := by rw [hscan]; rfl
    rw [readResponse_of_ok hread hinvalid hb (by rw [hbody]; exact hmax), hkeep]
    refine ⟨rfl, rfl, hbody, ?_⟩
    cases m.persists <;> simp

/-- The limit on the coding does not wrap where there is room for it. -/
theorem codedLimit_of_lt {maxBody : ℕ} (hlimit : maxBody < 2 ^ 64 - 64 * 1024) :
    codedLimit maxBody = maxBody + kMaxResponseHeaders := by
  apply Nat.mod_eq_of_lt
  simp only [kMaxResponseHeaders]
  omega

/-- Under such a limit nothing wraps. -/
theorem sizesFit_of_lt {req : Request} (m : Message req.method) (source : Source)
    (hlimit : maxBodyOf req < 2 ^ 64 - 64 * 1024) (hmax : m.body.length ≤ maxBodyOf req)
    (hcoded : m.framing = .chunked → m.payload.length ≤ maxBodyOf req + kMaxResponseHeaders) :
    SizesFit req m source := by
  unfold SizesFit
  -- the only sums that could wrap are those with the limit itself
  cases hnone : NoBody req.method m.final.status with
  | true => exact .inl rfl
  | false =>
    right
    have hframes := m.frames
    rw [hnone] at hframes
    cases hf : m.framing with
    | chunked =>
      rw [codedLimit_of_lt hlimit]
      exact hcoded hf
    | contentLength n =>
      rw [hf, Framing.Frames.eq_def] at hframes
      have hn : n = m.body.length := hframes.1
      intro hnpos
      simp only [npos] at hnpos
      omega
    | close =>
      intro hnpos
      simp only [npos] at hnpos
      omega

/-- The C interface sets such a limit. -/
theorem maxBodyOf_lt {req : Request} {configuredMaxBody : Int32}
    (hlimit : req.maxResponseBodyBytes = Abi.bodyLimit configuredMaxBody) :
    maxBodyOf req < 2 ^ 64 - 64 * 1024 := by
  have hlt := Abi.bodyLimit_le configuredMaxBody
  rw [maxBodyOf, hlimit]
  omega

/-- **Well-formed responses are delivered** in every segmentation of the stream, under every limit that leaves
room for the coding of a body. -/
theorem delivers_of_limit {dial : Dial} {engine : Http1Engine} {req : Request} {source : Source}
    (m : Message req.method) (hlimit : maxBodyOf req < 2 ^ 64 - 64 * 1024)
    (hsent : Sent dial engine req source) (hbytes : source.bytes = m.bytes)
    (hsections : ∀ σ ∈ m.sections, σ.bytes.length ≤ maxSection)
    (hmax : m.body.length ≤ maxBodyOf req)
    (hcoded : m.framing = .chunked → m.payload.length ≤ maxBodyOf req + kMaxResponseHeaders) :
    Delivers dial engine req m := by
  rw [delivers_iff_sizesFit m hsent hbytes hsections hmax]
  exact sizesFit_of_lt m source hlimit hmax hcoded

/-- `hello` in one chunk. -/
def helloBody : ChunkedBody where
  chunks := [⟨ascii "hello", by decide,
    ⟨ascii "5", ⟨[], by decide, by decide⟩, by decide, by decide, by decide, by simp⟩⟩]
  last := ⟨ascii "0", ⟨[], by decide, by decide⟩, by decide, by decide, by decide, by simp⟩
  trailers := []

/-- A response with that body. -/
def helloMessage : Message (ascii "GET") where
  interim := []
  final := ⟨200, ⟨ascii "OK", by decide, by decide⟩, [⟨⟨ascii "Transfer-Encoding", by decide,
    by decide⟩, ⟨ascii "chunked", by decide, by decide⟩, by decide⟩], by decide⟩
  framing := .chunked
  body := ascii "hello"
  payload := helloBody.bytes
  interim_status := by simp
  final_status := by decide
  announced := .inr ⟨[], _, [], rfl, ⟨by decide, by decide⟩, by simp, by simp⟩
  frames := by
    rw [Framing.Frames.eq_def, if_neg (by decide)]
    exact ⟨helloBody, by decide, rfl⟩

/-- The whole response in one piece. -/
def helloSource : Source := ⟨[helloMessage.bytes], .eof⟩

/-- Every connection reads this stream. -/
def dialTo (source : Source) : Dial := fun _ _ => .ok { source := source }

/-- A plain request, with a limit of five bytes. -/
def fiveBytesRequest : Request := { host := ascii "h", maxResponseBodyBytes := 5 }

theorem sent_dialTo (source : Source) : Sent (dialTo source) {} fiveBytesRequest source := by
  have hwritten : ∃ ssl, writeAll (requestText fiveBytesRequest []) { source := source } = some ssl :=
    writeAll_isSome (by simp)
  obtain ⟨ssl, hssl⟩ := hwritten
  exact ⟨rfl, _, _, false, [], ssl, rfl, rfl, hssl, rfl⟩

theorem delivers_hello : Delivers (dialTo helloSource) {} fiveBytesRequest helloMessage :=
  delivers_of_limit helloMessage (maxBodyOf_lt (show _ = Abi.bodyLimit 5 by decide)) (sent_dialTo helloSource)
    (by decide +kernel) (by decide +kernel) (by decide +kernel) (by decide +kernel)

end Http1

end AsterNet
