import AsterNet.Engine.Http1.Equiv.Complete

/-!
# The limit on the body

`JudgesBody`: a body within `max_response_body_bytes` is delivered, and a longer one is refused with
`ASTERNET_ERR_BUFFER_TOO_SMALL` and the connection closed.  `judgesBody_iff` is the exact condition:

* each header section is completed by a read within `kMaxResponseHeaders` bytes of its beginning;
* the coding of a chunked body within the limit is itself within `max_body + kMaxResponseHeaders`, the sum
  as `size_t` has it: chunk sizes, extensions and trailers count (`not_judgesBody_tiny`);
* under the largest limit, a body to the end of the stream does not start with a read of `0` bytes;
* a body beyond the limit announces no number above `2^64 - 1`.
-/

namespace AsterNet

namespace Http1

open ByteString Segmented

/-! ### The condition -/

/-- The limit is about the body. -/
def JudgesBody (dial : Dial) (engine : Http1Engine) (req : Request) (m : Message req.method) : Prop :=
  if m.body.length ≤ maxBodyOf req then
    (request dial engine req).1.errCode = .ok ∧ (request dial engine req).1.body = m.body
  else
    (request dial engine req).1.errCode = .errBufferTooSmall ∧
      (request dial engine req).2.connection = none

/-- A body within the limit is taken. -/
def TakenWithin (req : Request) (m : Message req.method) (source : Source) : Prop :=
  NoBody req.method m.final.status = true ∨
  match m.framing with
  | .chunked => m.payload.length ≤ codedLimit (maxBodyOf req)
  | framing => framing.cl = npos → maxBodyOf req = npos →
      m.body = [] ∨ ¬ ReadEndsAt source m.headerBytes

/-- A body beyond the limit is refused for its length. -/
def RefusedBeyond (req : Request) (m : Message req.method) (source : Source) : Prop :=
  match m.framing with
  | .chunked => ∀ p rest, Reads bufSize source (m.headerBytes ++ p) rest →
      p.length ≤ codedLimit (maxBodyOf req) → decodeChunked p [] ≠ .invalid
  | .contentLength n => n ≤ ullongMax
  | .close => maxBodyOf req = npos → ¬ ReadEndsAt source m.headerBytes

/-! ### Bodies beyond the limit -/

/-- The framing by the end of the stream refuses for one reason. -/
theorem readToEnd_error {maxBody : ℕ} {body : Bytes} {source : Source}
    (h : ∀ b, readToEnd maxBody body source ≠ .ok b) :
    ∃ failure, readToEnd maxBody body source = .error failure ∧ failure.errCode = .errBufferTooSmall := by
  unfold readToEnd at h ⊢
  dsimp only at h ⊢
  split_ifs at h ⊢
  · exact ⟨_, rfl, rfl⟩
  · exact absurd rfl (h _)

/-- **A chunked body beyond the limit** is refused, for its length exactly when the decoder meets nothing
invalid within the limit on the coding. -/
theorem readChunked_beyond {maxBody : ℕ} {body : Bytes} {source : Source} (c : ChunkedBody)
    (hbytes : body ++ source.bytes = c.bytes) (hbeyond : maxBody < c.body.length) :
    ∃ failure, readChunked maxBody body source = .error failure ∧
      (failure.errCode = .errBufferTooSmall ↔ ∀ d rest, Reads bufSize source d rest →
        (body ++ d).length ≤ codedLimit maxBody → decodeChunked (body ++ d) [] ≠ .invalid) := by
  obtain ⟨d, hd, hreads⟩ := reads_readWhile body source
  have hpassed : ∀ e mid, Reads bufSize source e mid →
      (body ++ e).length < (readWhile (chunkedPending maxBody) (fun _ => bufSize) body source).1.length →
      chunkedPending maxBody (body ++ e) = true := fun e mid => cond_of_reads
  have hstop := readWhile_stop (chunkedPending maxBody) (fun _ => bufSize) body source
  have hall := readWhile_bytes (chunkedPending maxBody) (fun _ => bufSize) body source
  unfold readChunked
  dsimp only
  generalize readWhile (chunkedPending maxBody) (fun _ => bufSize) body source = read at *
  rw [hbytes] at hall
  by_cases hlong : codedLimit maxBody < read.1.length
  · -- the loop has passed the limit, so nothing before was invalid
    rw [if_neg (not_le.mpr hlong)]
    refine ⟨_, rfl, ?_⟩
    dsimp only
    rw [if_pos hlong]
    refine iff_of_true rfl fun e mid he hle hinvalid => ?_
    have hpending := hpassed e mid he (by omega)
    rw [chunkedPending, Incremental.pending_iff, hinvalid] at hpending
    cases hpending.2
  · rw [if_pos (not_lt.mp hlong)]
    -- within the limit, the decoder has the last word
    cases hdecode : decodeChunked read.1 [] with
    | invalid =>
      refine ⟨_, rfl, ?_⟩
      dsimp only
      rw [if_neg hlong]
      refine iff_of_false (by simp) fun hvalid => hvalid d read.2 hreads ?_ ?_
      · rw [← hd]
        exact not_lt.mp hlong
      · rw [← hd]
        exact hdecode
    | complete decoded rest =>
      -- the coding was complete, so it is the whole one
      have happend := lawful_decodeChunked.append_complete hdecode read.2.bytes
      rw [hall] at happend
      have hdecoded : decoded = c.body := by
        rcases c.decodeChunked_bytes [] with hcomplete | hinvalid
        · rw [hcomplete] at happend
          injection happend with heq _
          exact heq.symm
        · rw [hinvalid] at happend
          cases happend
      dsimp only
      rw [if_pos (hdecoded ▸ hbeyond)]
      refine ⟨_, rfl, iff_of_true rfl fun e mid he hle hinvalid => ?_⟩
      have hpre : body ++ e <+: c.bytes := by
        rw [← hbytes, he.bytes_eq, ← List.append_assoc]
        exact List.prefix_append _ _
      obtain ⟨t, ht⟩ := hpre
      have hbad : decodeChunked c.bytes [] = .invalid := ht ▸ lawful_decodeChunked.append_invalid hinvalid t
      rw [hbad] at happend
      cases happend
    | incomplete =>
      -- then everything was read
      exfalso
      rcases hstop with hdone | hzero | hnil
      · rw [← Bool.not_eq_true, chunkedPending, Incremental.pending_iff] at hdone
        exact hdone ⟨not_lt.mp hlong, hdecode⟩
      · simp [bufSize] at hzero
      · rw [hnil, List.append_nil] at hall
        rw [hall] at hdecode
        rcases c.decodeChunked_bytes [] with h | h <;> rw [h] at hdecode <;> cases hdecode

/-- The reply to a refused body. -/
theorem readResponse_of_error {req : Request} {source : Source} {head : Head} {failure : BodyFailure}
    (hread : readHead [] 0 [] source = .ok head) (hscan : (scanHeaders head.headers).invalid = false)
    (hb : readBody req head (scanHeaders head.headers) = .error failure) :
    (readResponse req source).1.errCode = failure.errCode ∧ (readResponse req source).2 = none := by
  unfold readResponse
  rw [hread]
  dsimp only
  rw [if_neg (by rw [hscan]; simp), hb]
  exact ⟨rfl, rfl⟩

section

variable {req : Request} {m : Message req.method} {source : Source} {head : Head}

/-! ### Within the limit -/

/-- **A body within the limit is taken** exactly under the condition. -/
theorem readBody_within_iff (h : AtBody m head source) (hmax : m.body.length ≤ maxBodyOf req) :
    (∃ b, readBody req head (scanOf m) = .ok b ∧ b.body = m.body) ↔ TakenWithin req m source := by
  unfold TakenWithin
  -- no body, a coding, a length or the end of the stream
  cases hnone : NoBody req.method m.final.status with
  | true => exact iff_of_true (takesBody_of_noBody h hnone).1 (.inl rfl)
  | false =>
    rw [or_iff_right (by simp)]
    have hframes := m.frames
    rw [hnone] at hframes
    cases hf : m.framing with
    | chunked =>
      constructor
      · rintro ⟨b, hb, -⟩
        exact (readBody_chunked_isOk_iff h hnone hf hmax).mp ⟨b, hb⟩
      · intro hle
        exact ((takesBody_of_chunked h hnone hf hmax).mpr hle).1
    | contentLength n =>
      rw [hf, Framing.Frames.eq_def] at hframes
      obtain ⟨hn, hpayload⟩ := hframes
      -- a length of `npos` is read to the end of the stream
      by_cases hnpos : n = npos
      · obtain ⟨hread, -⟩ := readBody_of_not_chunked h hnone (by rw [hf]; simp)
        rw [hread, hf, Framing.cl, if_neg (not_not.mpr hnpos), readToEnd_iff h hpayload hmax]
        exact ⟨fun h _ => h, fun h => h hnpos⟩
      · refine iff_of_true ?_ fun heq => absurd heq hnpos
        exact ((takesBody_of_contentLength h hnone hf hmax).mpr fun heq => absurd heq hnpos).1
    | close =>
      rw [hf, Framing.Frames.eq_def] at hframes
      obtain ⟨hread, -⟩ := readBody_of_not_chunked h hnone (by rw [hf]; simp)
      have hcl : Framing.close.cl = npos := rfl
      rw [hread, hf, hcl, if_neg (by simp), readToEnd_iff h hframes hmax]
      exact ⟨fun h _ => h, fun h => h rfl⟩

/-! ### Beyond the limit -/

/-- The loop to the end of the stream refuses, unless it starts with a read of `0` bytes. -/
theorem readToEnd_beyond (hlt : maxBodyOf req < (head.body ++ head.source.bytes).length) :
    (∃ failure, readToEnd (maxBodyOf req) head.body head.source = .error failure ∧
      failure.errCode = .errBufferTooSmall) ↔ (maxBodyOf req = npos → head.body ≠ []) := by
  constructor
  · rintro ⟨failure, hfailure, -⟩ hnpos hnil
    obtain ⟨readFailed, hread, -⟩ := readToEnd_of_wrap head.source
    rw [hnpos, hnil, hread] at hfailure
    cases hfailure
  · intro hne
    exact readToEnd_error (readToEnd_of_lt (maxBodyOf_le req) hne hlt)

/-- The boundaries behind the header sections, seen from the stream and from the body loop. -/
theorem forall_reads_iff {P : Bytes → Prop} {source' : Source} {headers body : Bytes}
    (hreads : Reads bufSize source (headers ++ body) source')
    (hboundary : ∀ e rest, Reads bufSize source e rest → e.length < (headers ++ body).length →
      e.length < headers.length) :
    (∀ d rest, Reads bufSize source' d rest → P (body ++ d)) ↔
      ∀ p rest, Reads bufSize source (headers ++ p) rest → P p := by
  constructor
  · intro hall p rest hp
    rcases Nat.lt_or_ge (headers ++ p).length (headers ++ body).length with hlt | hge
    · have := hboundary _ rest hp hlt
      rw [List.length_append] at this
      omega
    · obtain ⟨e, heq, he⟩ := hreads.exists_append hp hge
      rw [List.append_assoc] at heq
      rw [List.append_cancel_left heq]
      exact hall e rest he
  · intro hall d rest hd
    have hp := hreads.trans hd
    rw [List.append_assoc] at hp
    exact hall (body ++ d) rest hp

/-- **A body beyond the limit is refused** for its length exactly under the condition. -/
theorem readBody_beyond_iff (h : AtBody m head source)
    (hreads : Reads bufSize source (m.headerBytes ++ head.body) head.source)
    (hboundary : ∀ e rest, Reads bufSize source e rest → e.length < (m.headerBytes ++ head.body).length →
      e.length < m.headerBytes.length)
    (hmax : maxBodyOf req < m.body.length) (hcl : m.framing.cl ≤ ullongMax) :
    (∃ failure, readBody req head (scanOf m) = .error failure ∧ failure.errCode = .errBufferTooSmall) ↔
      RefusedBeyond req m source := by
  have hframes := m.frames
  -- a response without a body is within every limit
  have hsome : NoBody req.method m.final.status = false := by
    cases hnone : NoBody req.method m.final.status with
    | false => rfl
    | true =>
      rw [hnone] at hframes
      have hnil : m.body = [] := hframes.1
      rw [hnil] at hmax
      exact absurd hmax (Nat.not_lt_zero _)
  rw [hsome] at hframes
  unfold RefusedBeyond
  -- a coding, a length or the end of the stream
  cases hf : m.framing with
  | chunked =>
    rw [hf, Framing.Frames.eq_def] at hframes
    obtain ⟨c, hbody, hbytes⟩ := hframes
    have hread : readBody req head (scanOf m) = readChunked (maxBodyOf req) head.body head.source := by
      unfold readBody
      dsimp only
      rw [if_neg (by rw [h.status, noBodyStatus_eq, hsome]; simp), if_pos (by simp [scanOf, hf])]
      rfl
    obtain ⟨failure, hfailure, hiff⟩ := readChunked_beyond c (h.payload.trans hbytes.symm)
      (by rw [hbody]; exact hmax)
    rw [hread, hfailure]
    rw [← forall_reads_iff (P := fun p => p.length ≤ codedLimit (maxBodyOf req) →
      decodeChunked p [] ≠ .invalid) hreads hboundary, ← hiff]
    constructor
    · rintro ⟨_, heq, hcode⟩
      obtain rfl := Except.error.inj heq
      exact hcode
    · intro hcode
      exact ⟨failure, rfl, hcode⟩
  | contentLength n =>
    rw [hf, Framing.Frames.eq_def] at hframes
    obtain ⟨hn, hpayload⟩ := hframes
    obtain ⟨hread, -⟩ := readBody_of_not_chunked h hsome (by rw [hf]; simp)
    rw [hf, Framing.cl] at hread hcl
    refine iff_of_true ?_ hcl
    rw [hread]
    -- a length that is taken for absent is refused by the loop, and any other at once
    by_cases hnpos : n = npos
    · rw [if_neg (not_not.mpr hnpos), readToEnd_beyond (by rw [h.payload, hpayload]; exact hmax)]
      intro heq
      omega
    · rw [if_pos hnpos, readLength, if_pos (by omega)]
      exact ⟨_, rfl, rfl⟩
  | close =>
    rw [hf, Framing.Frames.eq_def] at hframes
    have hpayload : m.payload = m.body := hframes
    obtain ⟨hread, -⟩ := readBody_of_not_chunked h hsome (by rw [hf]; simp)
    have hclose : Framing.close.cl = npos := rfl
    rw [hread, hf, hclose, if_neg (by simp), readToEnd_beyond (by rw [h.payload, hpayload]; exact hmax)]
    exact imp_congr_right fun _ => not_congr h.readEnds

end

/-! ### The response -/

section

variable {req : Request} {source : Source} {head : Head}

/-- A body that is taken is within the limit. -/
theorem length_le_of_readBody {scan : Scan} {b : Body} (h : readBody req head scan = .ok b) :
    b.body.length ≤ maxBodyOf req := by
  unfold readBody at h
  dsimp only at h
  split_ifs at h
  · obtain ⟨-, rfl⟩ := takeNoBody_ok_iff.mp h
    exact Nat.zero_le _
  · exact (readChunked_ok h).1
  · have hcl := (readLength_ok_iff.mp ⟨b, h⟩).1
    rw [(readLength_ok h).1]
    exact (List.length_take_le _ _).trans hcl
  · unfold readToEnd at h
    dsimp only at h
    split_ifs at h with hlong
    obtain rfl := Except.ok.inj h
    exact not_lt.mp hlong

/-- A reply with OK and this body comes from a body that was taken. -/
theorem readResponse_ok_iff (hread : readHead [] 0 [] source = .ok head)
    (hscan : (scanHeaders head.headers).invalid = false) (body : Bytes) :
    ((readResponse req source).1.errCode = .ok ∧ (readResponse req source).1.body = body) ↔
      ∃ b, readBody req head (scanHeaders head.headers) = .ok b ∧ b.body = body := by
  cases hb : readBody req head (scanHeaders head.headers) with
  | error failure =>
    rw [(readResponse_of_error hread hscan hb).1]
    constructor
    · rintro ⟨hok, -⟩
      exact absurd hok (readBody_error hb)
    · rintro ⟨b, ⟨⟩, -⟩
  | ok b =>
    rw [readResponse_of_ok hread hscan hb (length_le_of_readBody hb)]
    constructor
    · rintro ⟨-, hbody⟩
      exact ⟨b, rfl, hbody⟩
    · rintro ⟨b', heq, hbody⟩
      obtain rfl := Except.ok.inj heq
      exact ⟨rfl, hbody⟩

/-- A reply that refuses the length comes from a body that was refused for it. -/
theorem readResponse_tooSmall_iff (hread : readHead [] 0 [] source = .ok head)
    (hscan : (scanHeaders head.headers).invalid = false) :
    ((readResponse req source).1.errCode = .errBufferTooSmall ∧ (readResponse req source).2 = none) ↔
      ∃ failure, readBody req head (scanHeaders head.headers) = .error failure ∧
        failure.errCode = .errBufferTooSmall := by
  cases hb : readBody req head (scanHeaders head.headers) with
  | error failure =>
    obtain ⟨hcode, hnone⟩ := readResponse_of_error hread hscan hb
    rw [hcode]
    constructor
    · rintro ⟨htoo, -⟩
      exact ⟨failure, rfl, htoo⟩
    · rintro ⟨failure', heq, htoo⟩
      obtain rfl := Except.error.inj heq
      exact ⟨htoo, hnone⟩
  | ok b =>
    rw [readResponse_of_ok hread hscan hb (length_le_of_readBody hb)]
    constructor
    · rintro ⟨⟨⟩, -⟩
    · rintro ⟨_, ⟨⟩, -⟩

/-- A response whose section is refused is refused without its length. -/
theorem readResponse_errProtocol (h : (∃ failure, readHead [] 0 [] source = .error failure) ∨
    ∃ head, readHead [] 0 [] source = .ok head ∧ (scanHeaders head.headers).invalid = true) :
    (readResponse req source).1.errCode = .errProtocol := by
  unfold readResponse
  rcases h with ⟨failure, hread⟩ | ⟨head, hread, hinvalid⟩
  · rw [hread]
  · rw [hread]
    dsimp only
    rw [if_pos hinvalid]

end

/-! ### The request -/

section

variable {dial : Dial} {engine : Http1Engine} {req : Request} {source : Source}

/-- What the request says about the body, it says about the response. -/
theorem judgesBody_iff_readResponse (m : Message req.method) (hsent : Sent dial engine req source) :
    JudgesBody dial engine req m ↔
      if m.body.length ≤ maxBodyOf req then
        (readResponse req source).1.errCode = .ok ∧ (readResponse req source).1.body = m.body
      else (readResponse req source).1.errCode = .errBufferTooSmall ∧ (readResponse req source).2 = none := by
  obtain ⟨⟨reused, hreply⟩, hconnection⟩ := request_of_sent hsent
  rw [JudgesBody, hreply, ← hconnection, Option.map_eq_none_iff]

/-- A refused section says nothing about the body. -/
theorem not_judgesBody_of_errProtocol {m : Message req.method} (hsent : Sent dial engine req source)
    (h : (readResponse req source).1.errCode = .errProtocol) : ¬ JudgesBody dial engine req m := by
  rw [judgesBody_iff_readResponse m hsent, h]
  split_ifs <;> simp

/-- Behind header sections that fit, a body within the limit. -/
theorem judgesBody_within_iff (m : Message req.method) (hsent : Sent dial engine req source)
    (hbytes : source.bytes = m.bytes) (hfit : SectionsFit source 0 m.sections)
    (hmax : m.body.length ≤ maxBodyOf req) :
    JudgesBody dial engine req m ↔ TakenWithin req m source := by
  obtain ⟨body, source', hread, hpayload, -, hends⟩ := readHead_message m hbytes hfit
  set head : Head := ⟨m.sections.map Section.bytes, m.final.status, m.final.headers, body, source'⟩
  have hat : AtBody m head source := ⟨rfl, hpayload, hends⟩
  have hscan : scanHeaders head.headers = scanOf m :=
    scanHeaders_of_announcedBy m.announced (m.cl_le hmax)
  rw [judgesBody_iff_readResponse m hsent, if_pos hmax,
    readResponse_ok_iff hread (by rw [hscan]; rfl), hscan, readBody_within_iff hat hmax]

/-- Behind header sections that fit, a body beyond the limit. -/
theorem judgesBody_beyond_iff (m : Message req.method) (hsent : Sent dial engine req source)
    (hbytes : source.bytes = m.bytes) (hfit : SectionsFit source 0 m.sections)
    (hbeyond : maxBodyOf req < m.body.length) :
    JudgesBody dial engine req m ↔ RefusedBeyond req m source := by
  obtain ⟨body, source', hread, hpayload, -, hends⟩ := readHead_message m hbytes hfit
  have spec := readHead_spec hread
  set head : Head := ⟨m.sections.map Section.bytes, m.final.status, m.final.headers, body, source'⟩
  have hat : AtBody m head source := ⟨rfl, hpayload, hends⟩
  rw [judgesBody_iff_readResponse m hsent, if_neg (not_le.mpr hbeyond)]
  -- a length that does not fit is refused by the scan
  by_cases hcl : m.framing.cl ≤ ullongMax
  · have hscan : scanHeaders head.headers = scanOf m := scanHeaders_of_announcedBy m.announced hcl
    have hflat : head.sections.flatten = m.headerBytes := by
      rw [Message.headerBytes, List.flatMap_def]
    obtain ⟨d, hd, heq⟩ := spec.reads
    have hboundary := spec.boundary
    simp only [List.flatten_nil, List.nil_append, hflat] at heq hboundary
    rw [readResponse_tooSmall_iff hread (by rw [hscan]; rfl), hscan]
    exact readBody_beyond_iff hat (heq ▸ hd) hboundary hbeyond hcl
  · -- the number announced does not fit
    have hframing : ∃ n, m.framing = .contentLength n ∧ ullongMax < n := by
      cases hf : m.framing with
      | contentLength n =>
        rw [hf] at hcl
        exact ⟨n, rfl, not_le.mp hcl⟩
      | chunked =>
        rw [hf] at hcl
        exact absurd le_rfl hcl
      | close =>
        rw [hf] at hcl
        exact absurd le_rfl hcl
    obtain ⟨n, hf, hn⟩ := hframing
    have hinvalid : (scanHeaders head.headers).invalid = true :=
      invalid_of_announcedBy (hf ▸ m.announced) hn
    rw [readResponse_errProtocol (.inr ⟨head, hread, hinvalid⟩), RefusedBeyond, hf]
    exact iff_of_false (by simp) (not_le.mpr hn)

/-- **When the limit is about the body**: exactly when each header section is completed by a read within
the limit of the header, and the body is taken or refused as its length says. -/
theorem judgesBody_iff (m : Message req.method) (hsent : Sent dial engine req source)
    (hbytes : source.bytes = m.bytes) :
    JudgesBody dial engine req m ↔ SectionsFit source 0 m.sections ∧
      (m.body.length ≤ maxBodyOf req → TakenWithin req m source) ∧
      (maxBodyOf req < m.body.length → RefusedBeyond req m source) := by
  by_cases hfit : SectionsFit source 0 m.sections
  · rw [and_iff_right hfit]
    rcases Nat.lt_or_ge (maxBodyOf req) m.body.length with hbeyond | hmax
    · rw [judgesBody_beyond_iff m hsent hbytes hfit hbeyond, forall_prop_of_true hbeyond,
        and_iff_right fun hle => absurd hle (not_le.mpr hbeyond)]
    · rw [judgesBody_within_iff m hsent hbytes hfit hmax, forall_prop_of_true hmax,
        and_iff_left fun hlt => absurd hlt (not_lt.mpr hmax)]
  · have hstream : ([] : Bytes) ++ source.bytes = m.sections.flatMap Section.bytes ++ m.payload := hbytes
    obtain ⟨failure, hread⟩ := (readHead_sections [] 0 m.interim_status m.final_status.1 (.done source)
      rfl (by decide) hstream).2 hfit
    exact iff_of_false (not_judgesBody_of_errProtocol hsent (readResponse_errProtocol (.inl ⟨_, hread⟩)))
      fun h => hfit h.1

end

theorem judgesBody_hello : JudgesBody (dialTo helloSource) {} fiveBytesRequest helloMessage := by
  have hbytes : helloSource.bytes = helloMessage.bytes := by decide +kernel
  refine (judgesBody_iff helloMessage (sent_dialTo helloSource) hbytes).mpr ⟨?_, ?_, ?_⟩
  · refine @sectionsFit_of_message fiveBytesRequest helloMessage _ hbytes ?_
    decide +kernel
  · intro _
    have hfits : helloMessage.payload.length ≤ codedLimit (maxBodyOf fiveBytesRequest) := by decide +kernel
    exact .inr hfits
  · intro hlt
    exact absurd hlt (by decide +kernel)

/-- An extension of 64 KiB. -/
def longExtension : Text where
  bytes := 59 :: List.replicate kMaxResponseHeaders 120
  no_cr := by
    rw [List.mem_cons, List.mem_replicate]
    decide
  no_lf := by
    rw [List.mem_cons, List.mem_replicate]
    decide

theorem hello_ne : ascii "hello" ≠ [] := by decide

theorem five_ne : ascii "5" ≠ [] := by decide

theorem five_allDigits : AllDigits 16 (ascii "5") := by decide

theorem digitsValue_five : digitsValue 16 (ascii "5") = (ascii "hello").length := by decide

theorem head_longExtension : ∀ c ∈ longExtension.bytes.head?, c = 59 := by
  simp [longExtension]

/-- `hello` in one chunk, with a long extension in its size line. -/
def tinyBody : ChunkedBody :=
  { helloBody with chunks := [⟨ascii "hello", hello_ne, ⟨ascii "5", longExtension, five_ne,
      five_allDigits, digitsValue_five, head_longExtension⟩⟩] }

/-- A response with that body. -/
def tinyMessage : Message (ascii "GET") :=
  { helloMessage with
    payload := tinyBody.bytes
    frames := by
      rw [Framing.Frames.eq_def, if_neg (by decide)]
      exact ⟨tinyBody, by decide, rfl⟩ }

/-- The bytes of a chunk on the wire. -/
theorem length_chunkBytes (chunk : Chunk) : (ChunkedBody.chunkBytes chunk).length =
    chunk.size.digits.length + chunk.size.extension.bytes.length + chunk.data.length + 4 := by
  simp only [ChunkedBody.chunkBytes, SizeLine.text, List.length_append, crlf, List.length_cons,
    List.length_nil]
  omega

theorem length_chunkBytes_le {c : ChunkedBody} {chunk : Chunk} (h : chunk ∈ c.chunks) :
    (ChunkedBody.chunkBytes chunk).length ≤ c.bytes.length := by
  obtain ⟨before, after, heq⟩ := List.append_of_mem h
  rw [ChunkedBody.bytes, heq]
  simp only [List.flatMap_append, List.flatMap_cons, List.length_append]
  omega

/-- The body has five bytes, as many as allowed, and is refused for its length. -/
theorem not_judgesBody_tiny :
    ¬ JudgesBody (dialTo ⟨[tinyMessage.bytes], .eof⟩) {} fiveBytesRequest tinyMessage := by
  have hbytes : (⟨[tinyMessage.bytes], .eof⟩ : Source).bytes = tinyMessage.bytes := by
    rw [Source.bytes, List.flatten_singleton]
  have hlong : codedLimit (maxBodyOf fiveBytesRequest) < tinyMessage.payload.length := by
    have hlimit : codedLimit (maxBodyOf fiveBytesRequest) = kMaxResponseHeaders + 5 := by decide
    obtain ⟨chunk, hmem, hdigits, hextension, hdata⟩ : ∃ chunk ∈ tinyBody.chunks,
        chunk.size.digits.length = 1 ∧ chunk.size.extension = longExtension ∧ chunk.data.length = 5 :=
      ⟨_, List.mem_singleton_self _, rfl, rfl, rfl⟩
    have hlength : longExtension.bytes.length = kMaxResponseHeaders + 1 := by
      rw [longExtension, List.length_cons, List.length_replicate]
    have hchunk := length_chunkBytes chunk
    have hle := length_chunkBytes_le hmem
    have hpayload : tinyMessage.payload = tinyBody.bytes := rfl
    rw [hdigits, hextension, hdata, hlength] at hchunk
    rw [hpayload]
    omega
  have hsections : ∀ σ ∈ helloMessage.sections, σ.bytes.length ≤ maxSection := by decide +kernel
  rw [judgesBody_within_iff tinyMessage (sent_dialTo _) hbytes
    (@sectionsFit_of_message fiveBytesRequest tinyMessage _ hbytes hsections) (by decide +kernel)]
  rintro (hnone | hle)
  · revert hnone
    decide
  · exact absurd hle (not_le.mpr hlong)

end Http1

end AsterNet
