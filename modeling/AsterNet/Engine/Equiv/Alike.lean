import AsterNet.Engine.Http1.Equiv.Complete
import AsterNet.Engine.Http2.Equiv.Complete
import AsterNet.Engine.Http3.Equiv.Complete

/-!
# The same response over every protocol

* `judgedAlike_iff`: a response that each protocol delivers completely is answered alike by the three
  engines if and only if it has no interim part, no body where none is allowed, and is within the limit
  of HTTP/1.1 on the chunked coding.

HTTP/2 does not get over interim header blocks; where no body is allowed HTTP/2 refuses one and HTTP/3
takes it.
-/

namespace AsterNet

open ByteString

/-- A response, whatever protocol carries it. -/
structure Answer where
  interim : List ℕ
  status : ℕ
  body : Bytes
  interim_status : ∀ status ∈ interim, 100 ≤ status ∧ status < 200
  final_status : 200 ≤ status ∧ status ≤ 599

/-! ### How the protocols carry it -/

/-- A response on the wire of HTTP/1.1, with a length or chunked.  Where no body is allowed an empty one
has no bytes; bytes of another one follow in the framing. -/
structure Http1.Carried (method : Bytes) (a : Answer) where
  interim : List Http1.Section
  final : Http1.Section
  framing : Http1.Framing
  payload : Bytes
  interim_eq : interim.map Http1.Section.status = a.interim
  final_eq : final.status = a.status
  delimited : framing ≠ .close
  announced : framing.AnnouncedBy final.fields
  frames : framing.Frames (Http1.NoBody method a.status && a.body.isEmpty) a.body payload
  /-- The header sections are within the engine's limit. -/
  short : ∀ σ ∈ interim ++ [final], σ.bytes.length ≤ Http1.maxSection

/-- The bytes on the wire. -/
def Http1.Carried.bytes {method : Bytes} {a : Answer} (c : Http1.Carried method a) : Bytes :=
  (c.interim ++ [c.final]).flatMap Http1.Section.bytes ++ c.payload

/-- A response in the frames of HTTP/2. -/
structure Http2.Carried (a : Answer) where
  interim : List (ℕ × List Header)
  fields : List Header
  data : List (List Bytes)
  trailers : Option (List Header)
  interim_eq : interim.map Prod.fst = a.interim
  data_eq : data.flatten.flatten = a.body
  regular_fields : ∀ h ∈ interim.flatMap Prod.snd ++ fields ++ trailers.getD [], h.name.head? ≠ some 58

namespace Http2.Carried

variable {a : Answer} (c : Http2.Carried a)

/-- What follows the final header block. -/
def tail : List Http2.Part := c.data.map .data ++ c.trailers.toList.map .headerBlock

/-- All frames. -/
def parts : List Http2.Part :=
  c.interim.map (fun block => Http2.statusBlock block.1 block.2) ++
    Http2.statusBlock a.status c.fields :: c.tail

/-- The header bytes are within the engine's limit. -/
def Short : Prop := (c.parts.map Http2.Part.headerBytes).sum ≤ 64 * 1024

end Http2.Carried

/-- A response in the pieces XQUIC hands out.  The first header section is the initial one; the others,
trailers included, are reported as initial or as later ones. -/
structure Http3.Carried (a : Answer) where
  pieces : List (Http3.Piece × Bool)
  first : ∃ fields fin rest, pieces = (.initial fields, fin) :: rest
  sections : ∀ piece ∈ pieces, ∀ fields, piece.1 = .initial fields → Http3.IsSection fields
  statuses : pieces.filterMap (fun piece => piece.1.status) = (a.interim ++ [a.status]).map Nat.cast
  content : (pieces.flatMap fun piece => piece.1.content) = a.body
  ended : ∃ init last, pieces = init ++ [(last, true)] ∧ ∀ piece ∈ init, piece.2 = false

/-! ### What the engines answer -/

/-- What an engine says about a response. -/
structure Verdict where
  errCode : Result
  httpStatus : ℤ
  body : Bytes
  deriving DecidableEq, Repr

/-- The verdict of a reply of HTTP/1.1. -/
def Http1.Reply.verdict (reply : Http1.Reply) : Verdict :=
  ⟨reply.errCode, reply.httpStatus, reply.body⟩

/-- The verdict of a reply of HTTP/2. -/
def Http2.Reply.verdict (reply : Http2.Reply) : Verdict :=
  ⟨reply.errCode, reply.httpStatus, reply.body⟩

/-- The verdict of a reply of HTTP/3. -/
def Http3.Reply.verdict (reply : Http3.Reply) : Verdict :=
  ⟨reply.errCode, reply.httpStatus, reply.body⟩

/-- The verdicts agree, and no interim status is that of an OK. -/
def JudgedAlike (one two three : Verdict) : Prop :=
  one = two ∧ two = three ∧
    ∀ v ∈ [one, two, three], v.errCode = .ok → ¬ (100 ≤ v.httpStatus ∧ v.httpStatus < 200)

instance (one two three : Verdict) : Decidable (JudgedAlike one two three) :=
  inferInstanceAs (Decidable (_ ∧ _))

variable {a : Answer} {req : Request}

/-! ### HTTP/1.1 -/

section Http1

open Http1

variable {dial : Http1.Dial} {engine : Http1Engine} {source : Segmented.Source}

/-- A chunked body is taken only when its coding is within the limit. -/
theorem payload_le_of_ok (m : Http1.Message req.method) (hsent : Sent dial engine req source)
    (hbytes : source.bytes = m.bytes) (hsections : ∀ σ ∈ m.sections, σ.bytes.length ≤ maxSection)
    (hmax : m.body.length ≤ maxBodyOf req) (hlt : maxBodyOf req < 2 ^ 64 - 64 * 1024)
    (hok : (Http1.request dial engine req).1.errCode = .ok)
    (hsome : NoBody req.method m.final.status = false) (hf : m.framing = .chunked) :
    m.payload.length ≤ maxBodyOf req + kMaxResponseHeaders := by
  obtain ⟨body, source', hread, hpayload, -, hends⟩ :=
    readHead_message m hbytes (sectionsFit_of_message m hbytes hsections)
  have hscan : scanHeaders m.final.headers = scanOf m :=
    scanHeaders_of_announcedBy m.announced (m.cl_le hmax)
  have hat : AtBody m ⟨m.sections.map Section.bytes, m.final.status, m.final.headers, body, source'⟩
      source := ⟨rfl, hpayload, hends⟩
  obtain ⟨⟨reused, hreply⟩, -⟩ := request_of_sent hsent
  rw [hreply] at hok
  obtain ⟨head, b, hread', -, hb, -⟩ := readResponse_ok hok
  obtain rfl := Except.ok.inj (hread.symm.trans hread')
  dsimp only at hb
  rw [hscan] at hb
  have hle := (readBody_chunked_isOk_iff hat hsome hf hmax).mp ⟨b, hb⟩
  rwa [codedLimit_of_lt hlt] at hle

/-- The message without a body where none is allowed. -/
def Http1.Carried.message (c : Http1.Carried req.method a)
    (hbody : NoBody req.method a.status = true → a.body = []) : Http1.Message req.method where
  interim := c.interim
  final := c.final
  framing := c.framing
  body := a.body
  payload := c.payload
  interim_status := by
    intro σ hmem
    have hin : σ.status ∈ a.interim := by
      rw [← c.interim_eq]
      exact List.mem_map_of_mem hmem
    exact (a.interim_status _ hin).2
  final_status := by
    rw [c.final_eq]
    exact a.final_status
  announced := c.announced
  frames := by
    have hframes := c.frames
    rw [c.final_eq]
    cases hnone : NoBody req.method a.status with
    | true =>
      rw [hnone, hbody hnone] at hframes
      rw [hbody hnone]
      exact hframes
    | false =>
      rw [hnone, Bool.false_and] at hframes
      exact hframes

/-- What HTTP/1.1 answers when no body comes where none is allowed. -/
theorem http1_verdict_iff {configuredMaxBody : Int32} (c : Http1.Carried req.method a)
    (hlimit : req.maxResponseBodyBytes = Abi.bodyLimit configuredMaxBody)
    (hsent : Sent dial engine req source) (hbytes : source.bytes = c.bytes)
    (hmax : a.body.length ≤ maxBodyOf req) (hbody : NoBody req.method a.status = true → a.body = []) :
    (Http1.request dial engine req).1.verdict = ⟨.ok, a.status, a.body⟩ ↔
      (NoBody req.method a.status = false → c.framing = .chunked →
        c.payload.length ≤ maxBodyOf req + kMaxResponseHeaders) := by
  -- the response is a message as a server writes it, so its delivery is known
  have hlt := maxBodyOf_lt hlimit
  set m := c.message hbody with hm
  have hfinal : NoBody req.method m.final.status = NoBody req.method a.status := by
    rw [← c.final_eq]
    rfl
  -- an OK answer took the whole coding, so it was within the limit on it
  constructor
  · intro hverdict hsome hf
    have hok : (Http1.request dial engine req).1.errCode = .ok := congrArg Verdict.errCode hverdict
    exact payload_le_of_ok m hsent hbytes c.short hmax hlt hok (hfinal.trans hsome) hf
  · intro hcoded
    have hfits : SizesFit req m source := by
      cases hnone : NoBody req.method a.status with
      | true => exact .inl (hfinal.trans hnone)
      | false => exact sizesFit_of_lt m source hlt hmax (hcoded hnone)
    obtain ⟨hok, hstatus, hcontent, -⟩ := (delivers_iff_sizesFit m hsent hbytes c.short hmax).mpr hfits
    have hstatus' : (Http1.request dial engine req).1.httpStatus = a.status := by
      rw [hstatus, ← c.final_eq]
      rfl
    rw [Http1.Reply.verdict, hok, hstatus', hcontent]
    rfl

end Http1

/-! ### HTTP/2 -/

section Http2

open Http2

variable {dial : Http2.Dial} {engine : Http2Engine} {outside : Http2.Exchange}

theorem Http2.Carried.tail_content (c : Http2.Carried a) :
    c.tail.flatMap Http2.Part.content = a.body := by
  have hdata : (c.data.map Http2.Part.data).flatMap Http2.Part.content = a.body := by
    rw [← c.data_eq, List.flatten_flatten, List.flatMap_def, List.map_map]
    rfl
  have htrailers : (c.trailers.toList.map Http2.Part.headerBlock).flatMap Http2.Part.content = [] := by
    simp [Http2.Part.content]
  rw [Http2.Carried.tail, List.flatMap_append, hdata, htrailers, List.append_nil]

/-- The message when no body comes where none is allowed. -/
def Http2.Carried.message (c : Http2.Carried a)
    (hbody : Http1.NoBody req.method a.status = true → a.body = []) : Http2.Message req.method where
  interim := c.interim
  status := a.status
  fields := c.fields
  data := c.data
  trailers := c.trailers
  interim_status := by
    intro block hmem
    apply a.interim_status
    rw [← c.interim_eq]
    exact List.mem_map_of_mem hmem
  final_status := ⟨a.final_status.1, Nat.lt_succ_of_le a.final_status.2⟩
  regular_fields := c.regular_fields
  no_body := by
    intro hnone
    rw [c.data_eq]
    apply hbody
    simpa [Http1.NoBody, or_assoc] using hnone

/-- HTTP/2 accepts a response without interim part, with no body where none is allowed. -/
theorem http2_verdict_of_plain (c : Http2.Carried a) (hsubmits : Submits dial outside engine req)
    (hdel : Http2.Delivers outside.streamId c.parts outside.turns) (hshort : c.Short)
    (hmax : a.body.length ≤ req.maxResponseBodyBytes.toNat) (hplain : a.interim = [])
    (hbody : Http1.NoBody req.method a.status = true → a.body = []) :
    (Http2.request dial outside engine req).1.verdict = ⟨.ok, a.status, a.body⟩ := by
  have hnone : (c.message hbody).interim = [] := by
    have := c.interim_eq
    rwa [hplain, List.map_eq_nil_iff] at this
  have hcontent : (c.message hbody).body = a.body := c.data_eq
  obtain ⟨last, hloop, hok, hstatus, hlast⟩ := loop_of_final (c.message hbody) hdel hshort
    (by rw [hcontent]; exact hmax) hnone
  obtain ⟨reused, hreq⟩ := request_of_submits hsubmits
  rw [hreq, exchange, hloop, Http2.Reply.verdict]
  dsimp only
  rw [hok, hstatus, hlast, hcontent]
  rfl

theorem regular_of_mem_interim (c : Http2.Carried a) {block : ℕ × List Header}
    (hmem : block ∈ c.interim) : ∀ h ∈ block.2, h.name ≠ ascii ":status" := by
  refine ne_status_of_regular fun h hfield => c.regular_fields h ?_
  rw [List.mem_append, List.mem_append, List.mem_flatMap]
  exact .inl (.inl ⟨block, hmem, hfield⟩)

theorem regular_of_mem_fields (c : Http2.Carried a) : ∀ h ∈ c.fields, h.name ≠ ascii ":status" := by
  refine ne_status_of_regular fun h hfield => c.regular_fields h ?_
  rw [List.mem_append, List.mem_append]
  exact .inl (.inr hfield)

/-- HTTP/2 accepts no other response. -/
theorem http2_errCode_ne_ok (c : Http2.Carried a) (hsubmits : Submits dial outside engine req)
    (hdel : Http2.Delivers outside.streamId c.parts outside.turns)
    (hbad : a.interim ≠ [] ∨ (Http1.NoBody req.method a.status = true ∧ a.body ≠ [])) :
    (Http2.request dial outside engine req).1.verdict.errCode ≠ .ok := by
  obtain ⟨reused, hreq⟩ := request_of_submits hsubmits
  rw [hreq]
  -- an interim part alone ends the request
  cases hinterim : c.interim with
  | cons block blocks =>
    have hmem : block ∈ c.interim := by simp [hinterim]
    have hstatus := a.interim_status block.1 (by rw [← c.interim_eq]; exact List.mem_map_of_mem hmem)
    rw [Http2.Carried.parts, hinterim, List.map_cons, List.cons_append] at hdel
    exact errCode_ne_ok_of_interim reused hdel hstatus (regular_of_mem_interim c hmem)
  | nil =>
    have hplain : a.interim = [] := by rw [← c.interim_eq, hinterim, List.map_nil]
    obtain ⟨hnone, hbody⟩ := hbad.resolve_left (not_not.mpr hplain)
    -- no interim part, so the body is one that is not allowed
    have hnot : ((newContext req outside.streamId).answered a.status).responseBodyAllowed = false := by
      have hnone' : (req.method = ascii "HEAD" ∨ (a.status : ℤ) = 204) ∨ (a.status : ℤ) = 304 := by
        exact_mod_cast (by simpa [Http1.NoBody] using hnone)
      simpa [H2Ctx.answered, newContext, imp_iff_not_or] using hnone'
    rw [Http2.Carried.parts, hinterim, List.map_nil, List.nil_append] at hdel
    have hstatus : 200 ≤ a.status ∧ a.status < 600 :=
      ⟨a.final_status.1, Nat.lt_succ_of_le a.final_status.2⟩
    exact errCode_ne_ok_of_forbidden reused hdel hstatus (regular_of_mem_fields c) hnot
      (by rwa [c.tail_content])

end Http2

/-! ### HTTP/3 -/

section Http3

open Http3

variable {outside : Http3.Exchange} {limit : ℕ} {heard : Heard}

/-- Pieces that do not end the response may come while the body fits. -/
theorem admitsAll_of_open {pieces : List (Piece × Bool)} (hrunning : heard.ended = false)
    (hsections : ∀ piece ∈ pieces, ∀ fields, piece.1 = .initial fields → IsSection fields)
    (hopen : ∀ piece ∈ pieces, piece.2 = false)
    (hfits : (pieces.foldl Heard.take heard).content.length ≤ limit) :
    heard.AdmitsAll limit pieces := by
  induction pieces generalizing heard with
  | nil => trivial
  | cons piece pieces ih =>
    have hfin := hopen piece (List.mem_cons_self ..)
    have hfirst : (heard.take piece).content.length ≤ limit := by
      rw [List.foldl_cons, Heard.foldl_take_content, List.length_append] at hfits
      omega
    refine ⟨⟨hrunning, hsections piece (List.mem_cons_self ..), hfirst, ?_⟩, ?_⟩
    · intro hend
      rw [hfin] at hend
      cases hend
    · refine ih ?_ (fun p hmem => hsections p (List.mem_cons_of_mem _ hmem))
        (fun p hmem => hopen p (List.mem_cons_of_mem _ hmem)) hfits
      rw [Heard.take, hrunning, hfin]
      rfl

/-- The status heard at the end is that of some section. -/
theorem exists_heard_status {pieces : List (Piece × Bool)}
    (hsections : ∀ piece ∈ pieces, ∀ fields, piece.1 = .initial fields → IsSection fields)
    (h : heard.status ≠ none ∨ ∃ piece ∈ pieces, ∃ fields, piece.1 = .initial fields) :
    ∃ status, (pieces.foldl Heard.take heard).status = some status ∧
      (heard.status = some status ∨ status ∈ pieces.filterMap fun piece => piece.1.status) := by
  induction pieces generalizing heard with
  | nil =>
    obtain ⟨status, hstatus⟩ := Option.ne_none_iff_exists'.mp (h.resolve_right (by simp))
    exact ⟨status, hstatus, .inl hstatus⟩
  | cons piece pieces ih =>
    -- the statuses are those of the sections, wherever they stand
    have hrest := fun p hmem => hsections p (List.mem_cons_of_mem _ hmem)
    have hmore : ∀ status, (heard.take piece).status = some status ∨
        (status ∈ pieces.filterMap fun piece => piece.1.status) → heard.status = some status ∨
          status ∈ (piece :: pieces).filterMap fun piece => piece.1.status := by
      rintro status (hstatus | hmem)
      · obtain ⟨piece, fin⟩ := piece
        cases piece with
        | initial fields =>
          exact .inr (List.mem_filterMap.mpr ⟨_, List.mem_cons_self .., hstatus⟩)
        | data bytes => exact .inl hstatus
        | later fields => exact .inl hstatus
      · obtain ⟨p, hp, hstatus⟩ := List.mem_filterMap.mp hmem
        exact .inr (List.mem_filterMap.mpr ⟨p, List.mem_cons_of_mem _ hp, hstatus⟩)
    -- behind the first piece a status is known, or a section is still to come
    have hnext : (heard.take piece).status ≠ none ∨
        ∃ piece ∈ pieces, ∃ fields, piece.1 = .initial fields := by
      obtain ⟨piece, fin⟩ := piece
      cases piece with
      | initial fields =>
        obtain ⟨status, hstatus⟩ := announced_of_isSection
          (hsections _ (List.mem_cons_self ..) fields rfl)
        left
        rw [Heard.take]
        dsimp only
        rw [hstatus]
        simp
      | data bytes =>
        refine h.imp_right ?_
        rintro ⟨p, hmem, fields, heq⟩
        exact ⟨p, (List.mem_cons.mp hmem).resolve_left (by rintro rfl; cases heq), fields, heq⟩
      | later fields' =>
        refine h.imp_right ?_
        rintro ⟨p, hmem, fields, heq⟩
        exact ⟨p, (List.mem_cons.mp hmem).resolve_left (by rintro rfl; cases heq), fields, heq⟩
    obtain ⟨status, hstatus, hfrom⟩ := ih hrest hnext
    exact ⟨status, hstatus, hmore status hfrom⟩

/-- HTTP/3 accepts every response, with one of its statuses. -/
theorem http3_verdict (c : Http3.Carried a) (hdel : Http3.Delivers req outside c.pieces)
    (hmax : a.body.length ≤ req.maxResponseBodyBytes.toNat) :
    ∃ status ∈ a.interim ++ [a.status],
      (Http3.request outside req).verdict = ⟨.ok, status, a.body⟩ := by
  -- a section comes first, and only the last piece closes the stream
  obtain ⟨init, last, hpieces, hinit⟩ := c.ended
  obtain ⟨fields, fin, rest, hfirst⟩ := c.first
  have hsome : ∃ piece ∈ c.pieces, ∃ fields, piece.1 = .initial fields :=
    ⟨_, by rw [hfirst]; exact List.mem_cons_self .., fields, rfl⟩
  obtain ⟨status, hstatus, hfrom⟩ := @exists_heard_status {} _ c.sections (.inr hsome)
  have hcontent : (c.pieces.foldl Heard.take {}).content = a.body := by
    rw [Heard.foldl_take_content, c.content, List.nil_append]
  have hended : (c.pieces.foldl Heard.take {}).ended = true := by
    rw [Heard.foldl_take_ended, hpieces]
    simp
  -- every piece but the last leaves the response open, and the body heard so far fits
  have hadmits : Heard.AdmitsAll req.maxResponseBodyBytes.toNat {} c.pieces := by
    have hsections := c.sections
    rw [hpieces] at hsections hcontent hstatus ⊢
    rw [List.foldl_append] at hcontent hstatus
    rw [Heard.admitsAll_append]
    refine ⟨admitsAll_of_open rfl (fun p hmem => hsections p (List.mem_append_left _ hmem)) hinit ?_,
      ⟨?_, hsections _ (by simp), ?_, ?_⟩, trivial⟩
    · rw [List.foldl_cons, List.foldl_nil, Heard.take] at hcontent
      have hlen := congrArg List.length hcontent
      rw [List.length_append] at hlen
      omega
    · rw [Heard.foldl_take_ended, Bool.false_or, List.any_eq_false]
      intro piece hmem
      simp [hinit piece hmem]
    · rw [List.foldl_cons, List.foldl_nil] at hcontent
      rw [hcontent]
      exact hmax
    · intro _
      rw [List.foldl_cons, List.foldl_nil] at hstatus
      rw [hstatus]
      simp
  -- so the answer is the one heard, with the status of one of the sections
  have hreq := request_of_heard hdel hadmits hended hstatus
  have hmem := hfrom.resolve_left (by simp)
  rw [c.statuses, List.mem_map] at hmem
  obtain ⟨n, hn, rfl⟩ := hmem
  refine ⟨n, hn, ?_⟩
  rw [hreq, Http3.Reply.verdict, c.content]

end Http3

/-! ### All three -/

/-- No interim part, no body where none is allowed, and a chunked coding within the limit of
HTTP/1.1. -/
def PlainResponse (req : Request) (a : Answer) (c : Http1.Carried req.method a) : Prop :=
  a.interim = [] ∧ (Http1.NoBody req.method a.status = true → a.body = []) ∧
    (Http1.NoBody req.method a.status = false → c.framing = .chunked →
      c.payload.length ≤ req.maxResponseBodyBytes.toNat + Http1.kMaxResponseHeaders)

/-- **When the engines judge alike.** -/
theorem judgedAlike_iff {configuredMaxBody : Int32} {dial1 : Http1.Dial} {engine1 : Http1.Http1Engine}
    {source : Segmented.Source} {dial2 : Http2.Dial} {engine2 : Http2.Http2Engine}
    {outside2 : Http2.Exchange} {outside3 : Http3.Exchange} (c1 : Http1.Carried req.method a)
    (c2 : Http2.Carried a) (c3 : Http3.Carried a)
    (hlimit : req.maxResponseBodyBytes = Abi.bodyLimit configuredMaxBody)
    (hmax : a.body.length ≤ req.maxResponseBodyBytes.toNat)
    (hsent : Http1.Sent dial1 engine1 req source) (hbytes : source.bytes = c1.bytes)
    (hsubmits : Http2.Submits dial2 outside2 engine2 req)
    (hdel2 : Http2.Delivers outside2.streamId c2.parts outside2.turns) (hshort : c2.Short)
    (hdel3 : Http3.Delivers req outside3 c3.pieces) :
    JudgedAlike (Http1.request dial1 engine1 req).1.verdict
        (Http2.request dial2 outside2 engine2 req).1.verdict (Http3.request outside3 req).verdict ↔
      PlainResponse req a c1 := by
  obtain ⟨status, hmem, hthree⟩ := http3_verdict c3 hdel3 hmax
  constructor
  · rintro ⟨hone, htwo, -⟩
    have hok : (Http2.request dial2 outside2 engine2 req).1.verdict.errCode = .ok := by
      rw [htwo, hthree]
    -- HTTP/3 says OK whatever comes, so HTTP/2 has to
    have hgood : a.interim = [] ∧ ¬ (Http1.NoBody req.method a.status = true ∧ a.body ≠ []) := by
      by_contra hbad
      refine http2_errCode_ne_ok c2 hsubmits hdel2 ?_ hok
      by_contra hnot
      rw [not_or, not_not] at hnot
      exact hbad hnot
    obtain ⟨hplain, hgood⟩ := hgood
    have hbody : Http1.NoBody req.method a.status = true → a.body = [] := by
      intro hnone
      by_contra hne
      exact hgood ⟨hnone, hne⟩
    refine ⟨hplain, hbody, (http1_verdict_iff c1 hlimit hsent hbytes hmax hbody).mp ?_⟩
    rw [hone]
    exact http2_verdict_of_plain c2 hsubmits hdel2 hshort hmax hplain hbody
  -- a plain response within the limits is accepted by all three, with one status
  · rintro ⟨hplain, hbody, hcoded⟩
    have hone := (http1_verdict_iff c1 hlimit hsent hbytes hmax hbody).mpr hcoded
    have htwo := http2_verdict_of_plain c2 hsubmits hdel2 hshort hmax hplain hbody
    rw [hplain, List.nil_append, List.mem_singleton] at hmem
    rw [hone, htwo, hthree, hmem]
    refine ⟨rfl, rfl, ?_⟩
    intro v hv _
    have hfinal := a.final_status.1
    simp only [List.mem_cons, List.not_mem_nil, or_false, or_self] at hv
    rw [hv]
    dsimp only
    omega

/-! ### Two responses -/

/-- `200` with the body `hello`. -/
def helloAnswer : Answer := ⟨[], 200, ascii "hello", by simp, by decide⟩

/-- `204` with one byte. -/
def byteAnswer : Answer := ⟨[], 204, ascii "x", by simp, by decide⟩

theorem chunked_ne_close : Http1.Framing.chunked ≠ .close := by
  simp

theorem announcedBy_hello : Http1.Framing.chunked.AnnouncedBy Http1.helloMessage.final.fields :=
  Http1.helloMessage.announced

/-- `hello` in the chunked coding. -/
def helloCarried : Http1.Carried (ascii "GET") helloAnswer where
  interim := []
  final := Http1.helloMessage.final
  framing := .chunked
  payload := Http1.helloMessage.payload
  interim_eq := rfl
  final_eq := rfl
  delimited := chunked_ne_close
  announced := announcedBy_hello
  frames := Http1.helloMessage.frames
  short := by decide +kernel

/-- The byte behind its length. -/
def byteCarried : Http1.Carried (ascii "GET") byteAnswer where
  interim := []
  final := ⟨204, ⟨ascii "No Content", by decide, by decide⟩, [⟨⟨ascii "Content-Length", by decide,
    by decide⟩, ⟨ascii "1", by decide, by decide⟩, by decide⟩], by decide⟩
  framing := .contentLength 1
  payload := ascii "x"
  interim_eq := rfl
  final_eq := rfl
  delimited := by simp
  announced := .inr ⟨[], _, [], rfl, ⟨rfl, by decide +kernel⟩, by simp, by simp⟩
  frames := ⟨rfl, rfl⟩
  short := by decide +kernel

/-- A response without interim part in one DATA frame. -/
def framesOf (a : Answer) (h : a.interim = []) : Http2.Carried a where
  interim := []
  fields := []
  data := [[a.body]]
  trailers := none
  interim_eq := h.symm
  data_eq := by simp
  regular_fields := by simp

/-- A response without interim part in one section and one part, and its end alone. -/
def piecesOf (a : Answer) (h : a.interim = []) : Http3.Carried a where
  pieces := [(.initial [⟨ascii ":status", decimal a.status⟩], false), (.data a.body, false),
    (.data [], true)]
  first := ⟨_, _, _, rfl⟩
  sections := by
    intro piece hmem fields heq
    simp only [List.mem_cons, List.not_mem_nil, or_false] at hmem
    rcases hmem with rfl | rfl | rfl
    · obtain rfl := Http3.Piece.initial.inj heq
      have := a.final_status
      exact ⟨a.status, by omega, by omega, [], rfl, by simp⟩
    · cases heq
    · cases heq
  statuses := by
    have := a.final_status
    have hparse : Http3.parseHttpStatus (decimal a.status) = some (a.status : ℤ) :=
      Http3.parseHttpStatus_decimal (by omega) (by omega)
    simp [h, Http3.Piece.status, Http3.announced, hparse]
  content := by simp [Http3.Piece.content]
  ended := ⟨[_, _], _, rfl, by simp⟩

/-- The notifications that hand these pieces out. -/
def notificationsOf (a : Answer) : Http3.Exchange where
  polls := [[.handshake (.sent [])],
    [.readable { header := some (some ([⟨ascii ":status", decimal a.status⟩], false))
                 body := some [.data a.body false, .again] }],
    [.readable { emptyFin := true }]]

theorem delivers_notificationsOf (a : Answer) (h : a.interim = []) (hbody : a.body ≠ [])
    (req : Request) : Http3.Delivers req (notificationsOf a) (piecesOf a h).pieces where
  connected := rfl
  fine := ⟨rfl, ⟨by simp, by simp, by simp⟩, ⟨by simp, by simp, by simp⟩, trivial⟩
  pieces_eq := by
    simp [notificationsOf, piecesOf, Http3.Event.pieces, Http3.ReadNotify.pieces,
      Http3.sectionPieces, Http3.handedOut, hbody]

/-- A chunked response. -/
theorem judgedAlike_hello_iff :
    JudgedAlike (Http1.request (Http1.dialTo Http1.helloSource) {} Http1.fiveBytesRequest).1.verdict
        (Http2.request Http2.dialOk (Http2.exchangeOf (framesOf helloAnswer rfl).parts) {}
          Http1.fiveBytesRequest).1.verdict
        (Http3.request (notificationsOf helloAnswer) Http1.fiveBytesRequest).verdict ↔
      PlainResponse Http1.fiveBytesRequest helloAnswer helloCarried :=
  judgedAlike_iff helloCarried (framesOf helloAnswer rfl) (piecesOf helloAnswer rfl)
    (show _ = Abi.bodyLimit 5 by decide) (by decide +kernel) (Http1.sent_dialTo Http1.helloSource)
    (by decide +kernel) (Http2.submits_exchangeOf _ _ (by decide) rfl)
    (Http2.delivers_exchangeOf _ (by decide +kernel)) (Nat.le_of_ble_eq_true (by decide +kernel))
    (delivers_notificationsOf helloAnswer rfl (by decide) Http1.fiveBytesRequest)

/-- The stream of `204` with its byte, in one piece. -/
def byteSource : Segmented.Source := ⟨[byteCarried.bytes], .eof⟩

theorem not_judgedAlike_byte :
    byteAnswer.body.length ≤ Http1.fiveBytesRequest.maxResponseBodyBytes.toNat ∧
      Http1.Sent (Http1.dialTo byteSource) {} Http1.fiveBytesRequest byteSource ∧
      byteSource.bytes = byteCarried.bytes ∧
      Http2.Submits Http2.dialOk (Http2.exchangeOf (framesOf byteAnswer rfl).parts) {}
        Http1.fiveBytesRequest ∧
      Http2.Delivers 1 (framesOf byteAnswer rfl).parts
        (Http2.exchangeOf (framesOf byteAnswer rfl).parts).turns ∧
      Http3.Delivers Http1.fiveBytesRequest (notificationsOf byteAnswer)
        (piecesOf byteAnswer rfl).pieces ∧
      ¬ JudgedAlike (Http1.request (Http1.dialTo byteSource) {} Http1.fiveBytesRequest).1.verdict
          (Http2.request Http2.dialOk (Http2.exchangeOf (framesOf byteAnswer rfl).parts) {}
            Http1.fiveBytesRequest).1.verdict
          (Http3.request (notificationsOf byteAnswer) Http1.fiveBytesRequest).verdict :=
  ⟨by decide +kernel, Http1.sent_dialTo byteSource, by decide +kernel,
    Http2.submits_exchangeOf _ _ (by decide) rfl, Http2.delivers_exchangeOf _ (by decide +kernel),
    delivers_notificationsOf byteAnswer rfl (by decide) Http1.fiveBytesRequest, by decide +kernel⟩

end AsterNet
