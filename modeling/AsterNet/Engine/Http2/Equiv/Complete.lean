import AsterNet.Engine.Http2.Equiv.Deliver

/-!
# Which legal responses are accepted

* `accepts_iff`: a legal response that fits is answered with OK, its status and its body if and only if
  it has no interim header block.

The final header block of a response with interim ones has the category `headers`, and
`on_header_callback` reads `:status` in a block of the category `response` only: the final status is
never seen (`not_announces_of_interim`) and the request fails (`errCode_ne_ok_of_interim`).
Without interim blocks the callbacks are followed through the header block (`memRecv_statusBlock`) and
the frames behind it (`memRecv_response`), and the batches do not matter (`loop_of_delivers`).
-/

namespace AsterNet

namespace Http2

open ByteString

variable {ctx ctx' : H2Ctx} {streamId : ℤ} {turns : List Turn} {parts : List Part}

/-! ### Independence of the batches -/

/-- A prefix of the calls after which the stream is closed holds the calls for all frames. -/
theorem eq_of_prefix_of_closed {part : Part} {pre closing : List Callback} {cat : HeadersCategory}
    (hopen : ctx.streamClosed = false) (hclosing : closing = [] ∨ closing = [.streamClose streamId 0])
    (hpre : pre <+: partsCallbacks streamId cat (part :: parts) ++ closing)
    (hclosed : (memRecv ctx pre).2.streamClosed = true) :
    pre = partsCallbacks streamId cat (part :: parts) ∨
      pre = partsCallbacks streamId cat (part :: parts) ++ [.streamClose streamId 0] := by
  obtain ⟨init, last, heq, hinit⟩ := partsCallbacks_eq_concat streamId cat part parts
  -- only the last callback closes the stream
  have hlong : ¬ pre <+: init := by
    intro hshort
    rw [memRecv_streamClosed fun callback hmem => hinit callback (hshort.subset hmem), hopen] at hclosed
    cases hclosed
  rw [heq] at hpre ⊢
  rcases hclosing with rfl | rfl
  · rw [List.append_nil, List.prefix_concat_iff] at hpre
    exact .inl (hpre.resolve_right hlong)
  · rw [List.prefix_concat_iff] at hpre
    rcases hpre with hpre | hpre
    · exact .inr hpre
    · rw [List.prefix_concat_iff] at hpre
      exact .inl (hpre.resolve_right hlong)

theorem memRecv_streamClose (ctx : H2Ctx) (hid : streamId = ctx.streamId) :
    memRecv ctx.ended [.streamClose streamId 0] = (false, ctx.ended) := by
  have hid' : ¬ streamId ≠ ctx.ended.streamId := not_not.mpr hid
  rw [memRecv_cons, deliver, onStreamCloseCallback, if_neg hid']
  rfl

/-- The loop ends with what one batch of all calls about the stream leads to. -/
theorem loop_of_delivers {part : Part} (hdel : Delivers ctx.streamId (part :: parts) turns)
    (hopen : ctx.streamClosed = false) (hid : ctx'.streamId = ctx.streamId)
    (hrun : memRecv ctx.calm (partsCallbacks ctx.streamId .response (part :: parts)) =
      (false, ctx'.ended)) :
    ∃ last, loop ctx turns = (.ok, last) ∧ last.calm = ctx'.ended := by
  -- what nghttp2 calls is the parts of the response, and perhaps the close of the stream
  obtain ⟨closing, hclosing, hcalls⟩ := hdel.callbacks
  have hclose := memRecv_streamClose ctx' hid.symm
  have hwhole : memRecv ctx.calm (partsCallbacks ctx.streamId .response (part :: parts) ++ closing) =
      (false, ctx'.ended) := by
    rw [memRecv_append_of_eq hrun]
    rcases hclosing with rfl | rfl
    · rfl
    · exact hclose
  -- the calls about other streams change nothing that the verdict reads
  have hcalm := memRecv_calm ctx (turns.flatMap Turn.callbacks)
  rw [hcalls, hwhole, Prod.mk.injEq] at hcalm
  have hall : memRecv ctx (turns.flatMap Turn.callbacks) =
      (false, (memRecv ctx (turns.flatMap Turn.callbacks)).2) := by
    rw [hcalm.1]
  have hclosed : (memRecv ctx (turns.flatMap Turn.callbacks)).2.streamClosed = true := by
    rw [← calm_streamClosed, ← hcalm.2]
    rfl
  -- the loop stops at a batch at whose end the stream is closed
  obtain ⟨pre, hpre, last, hlast, hlastClosed, hloop⟩ :=
    exists_prefix_of_loop hdel.undisturbed hall hclosed
  refine ⟨last, hloop, ?_⟩
  have hpreCalm := memRecv_calm ctx pre
  rw [hlast] at hpreCalm
  have hfilter := hpre.filter (concerns ctx.streamId)
  rw [hcalls] at hfilter
  have hended : (memRecv ctx.calm (pre.filter (concerns ctx.streamId))).2.streamClosed = true := by
    rw [hpreCalm]
    exact hlastClosed
  -- the calls that were made are all of them, but for a closing that changes nothing
  rcases @eq_of_prefix_of_closed ctx.calm _ _ _ _ _ _ hopen hclosing hfilter hended with heq | heq
  · rw [heq, hrun, Prod.mk.injEq] at hpreCalm
    exact hpreCalm.2.symm
  · rw [heq, memRecv_append_of_eq hrun, hclose, Prod.mk.injEq] at hpreCalm
    exact hpreCalm.2.symm

/-! ### Without interim header blocks -/

/-- The context after a final `:status`. -/
def H2Ctx.answered (ctx : H2Ctx) (status : ℕ) : H2Ctx :=
  { ctx with
    httpStatus := status
    gotStatus := true
    responseBodyAllowed :=
      ctx.reqMethod ≠ ascii "HEAD" && (status : ℤ) ≠ 204 && (status : ℤ) ≠ 304 }

@[simp]
theorem answered_responseHeaderBytes (ctx : H2Ctx) (status : ℕ) :
    (ctx.answered status).responseHeaderBytes = ctx.responseHeaderBytes := rfl

/-- `:status` is read back. -/
theorem statusOf_decimal : ∀ status < 600, statusOf (decimal status) = status := by
  decide +kernel

theorem deliver_status {status : ℕ} {endStream : Bool} (hid : streamId = ctx.streamId)
    (hstatus : 200 ≤ status ∧ status < 600)
    (hfit : ctx.responseHeaderBytes + (7 + (decimal status).length) ≤ 64 * 1024) :
    deliver ctx (.header ⟨.headers, streamId, endStream, .response⟩ (ascii ":status")
      (decimal status)) = (false, (ctx.answered status).took (7 + (decimal status).length) []) := by
  have hseven : (ascii ":status").length = 7 := rfl
  have hfinal : ¬ (100 ≤ (status : ℤ) ∧ (status : ℤ) < 200) := by omega
  rw [deliver, onHeaderCallback, if_neg (not_not.mpr hid)]
  dsimp only
  rw [hseven, if_neg (by omega), if_pos ⟨rfl, rfl, rfl⟩, statusOf_decimal status hstatus.2,
    if_neg hfinal, Nat.add_assoc]
  simp only [H2Ctx.took, H2Ctx.answered, List.append_nil]

/-- The first header block, with a final status. -/
theorem memRecv_statusBlock {status : ℕ} {fields : List Header} {endStream : Bool}
    (hid : streamId = ctx.streamId) (hstatus : 200 ≤ status ∧ status < 600)
    (hregular : ∀ h ∈ fields, h.name ≠ ascii ":status")
    (hfit : ctx.responseHeaderBytes + (statusBlock status fields).headerBytes ≤ 64 * 1024) :
    memRecv ctx ((statusBlock status fields).callbacks streamId .response endStream) =
      (false, let ctx' := (ctx.answered status).took (statusBlock status fields).headerBytes []
        if endStream then ctx'.ended else ctx') := by
  have hsum : (statusBlock status fields).headerBytes =
      7 + (decimal status).length + (Part.headerBlock fields).headerBytes := rfl
  rw [hsum] at hfit
  have hfirst := @deliver_status ctx streamId status endStream hid hstatus (by omega)
  have hrest : ((ctx.answered status).took (7 + (decimal status).length) []).responseHeaderBytes +
      (Part.headerBlock fields).headerBytes ≤ 64 * 1024 := by
    rw [took_responseHeaderBytes, answered_responseHeaderBytes]
    omega
  have hfields := @memRecv_fields ((ctx.answered status).took (7 + (decimal status).length) [])
    ⟨.headers, streamId, endStream, .response⟩ fields hid (.inr hregular) hrest
  rw [took_took] at hfields
  rw [statusBlock, Part.callbacks, List.map_cons, List.cons_append, memRecv_cons_of_eq hfirst,
    memRecv_append_of_eq hfields, memRecv_cons, ← statusBlock, hsum]
  cases endStream <;> simp [deliver, onFrameRecvCallback, hid, memRecv, H2Ctx.took, H2Ctx.ended,
    H2Ctx.answered]

/-- The whole response, when the body is empty or allowed. -/
theorem memRecv_response {status : ℕ} {fields : List Header} {tail : List Part}
    (hid : streamId = ctx.streamId) (hstatus : 200 ≤ status ∧ status < 600)
    (hregular : ∀ h ∈ fields, h.name ≠ ascii ":status")
    (hheader : ctx.responseHeaderBytes +
      ((statusBlock status fields).headerBytes + (tail.map Part.headerBytes).sum) ≤ 64 * 1024)
    (hallowed : (ctx.answered status).responseBodyAllowed = false → tail.flatMap Part.content = [])
    (hfit : ctx.respBody.length + (tail.flatMap Part.content).length ≤ ctx.maxResponseBodyBytes) :
    memRecv ctx (partsCallbacks streamId .response (statusBlock status fields :: tail)) =
      (false, ((ctx.answered status).took
        ((statusBlock status fields).headerBytes + (tail.map Part.headerBytes).sum)
        (tail.flatMap Part.content)).ended) := by
  -- the header block first, then the frames behind it
  have hblock := @memRecv_statusBlock ctx streamId status fields tail.isEmpty hid hstatus hregular
    (by omega)
  rw [partsCallbacks, memRecv_append_of_eq hblock]
  cases tail with
  | nil => simp [partsCallbacks, memRecv]
  | cons part tail =>
    have hheader' : ((ctx.answered status).took (statusBlock status fields).headerBytes
        []).responseHeaderBytes + ((part :: tail).map Part.headerBytes).sum ≤ 64 * 1024 := by
      rw [took_responseHeaderBytes, answered_responseHeaderBytes]
      omega
    have hfit' : ((ctx.answered status).took (statusBlock status fields).headerBytes
        []).respBody.length + ((part :: tail).flatMap Part.content).length ≤
          ctx.maxResponseBodyBytes := by
      rw [took_respBody, List.append_nil]
      exact hfit
    have hparts := @memRecv_parts ((ctx.answered status).took (statusBlock status fields).headerBytes
      []) streamId (part :: tail) hid hheader' hallowed hfit'
    rw [took_took] at hparts
    exact hparts

/-! ### With interim header blocks -/

/-- A call that may set `gotStatus`. -/
def Announces (streamId : ℤ) : Callback → Prop
  | .header frame name value => frame.streamId = streamId ∧ frame.cat = .response ∧
      name = ascii ":status" ∧ ¬ (100 ≤ statusOf value ∧ statusOf value < 200)
  | _ => False

theorem deliver_gotStatus {callback : Callback} (h : ¬ Announces ctx.streamId callback) :
    (deliver ctx callback).2.gotStatus = ctx.gotStatus := by
  cases callback with
  | header frame name value =>
    simp only [deliver, onHeaderCallback]
    split_ifs with hid _ hstatus hinterim
    · rfl
    · rfl
    · rfl
    · exact absurd ⟨not_not.mp hid, hstatus.2.1, hstatus.2.2, hinterim⟩ h
    · rfl
  | dataChunk id data =>
    simp only [deliver, onDataChunkRecvCallback]
    split_ifs <;> rfl
  | frameRecv frame =>
    simp only [deliver, onFrameRecvCallback]
    split_ifs <;> rfl
  | streamClose id errorCode =>
    simp only [deliver, onStreamCloseCallback]
    split_ifs <;> rfl

theorem memRecv_gotStatus {callbacks : List Callback}
    (h : ∀ callback ∈ callbacks, ¬ Announces ctx.streamId callback) :
    (memRecv ctx callbacks).2.gotStatus = ctx.gotStatus := by
  induction callbacks generalizing ctx with
  | nil => rfl
  | cons callback callbacks ih =>
    have hfirst := deliver_gotStatus (h callback (List.mem_cons_self ..))
    rw [memRecv_cons]
    split_ifs
    · exact hfirst
    · rw [ih, hfirst]
      intro callback' hmem
      rw [deliver_streamId]
      exact h callback' (List.mem_cons_of_mem _ hmem)

theorem loop_gotStatus
    (h : ∀ callback ∈ turns.flatMap Turn.callbacks, ¬ Announces ctx.streamId callback) :
    (loop ctx turns).2.gotStatus = ctx.gotStatus := by
  -- the induction is on the turns; only a received batch makes calls
  induction turns generalizing ctx with
  | nil =>
    rw [loop]
    split_ifs <;> rfl
  | cons turn turns ih =>
    have hrest : ∀ callback ∈ turns.flatMap Turn.callbacks, ¬ Announces ctx.streamId callback :=
      fun callback hmem => h callback (by rw [List.flatMap_cons]; exact List.mem_append_right _ hmem)
    rw [loop.eq_def]
    dsimp only
    by_cases hclosed : ctx.streamClosed = true
    · rw [if_pos hclosed]
    rw [if_neg hclosed]
    cases turn with
    | received callbacks failed =>
      -- no callback of this batch announces a status
      have hbatch : (memRecv ctx callbacks).2.gotStatus = ctx.gotStatus :=
        memRecv_gotStatus fun callback hmem =>
          h callback (by rw [List.flatMap_cons]; exact List.mem_append_left _ hmem)
      have hid := memRecv_streamId ctx callbacks
      dsimp only
      split_ifs
      · exact hbatch
      · rw [ih (by rwa [hid]), hbatch]
    | idle => exact ih hrest
    | sendFailed => rfl
    | timeout => rfl
    | closed => rfl
    | readFailed => rfl

/-- Without a final status the request fails. -/
theorem judge_ne_ok {ret : Result} (h : ctx.gotStatus = false) : judge ret ctx ≠ .ok := by
  unfold judge
  split_ifs with hlimit hforbidden hret
  · simp
  · simp
  · simp
  · intro hok
    exact hret ⟨hok, .inl h⟩

/-- Behind the first header block no call announces a status. -/
theorem not_announces_of_headers {callback : Callback}
    (hmem : callback ∈ partsCallbacks streamId .headers parts) : ¬ Announces streamId callback := by
  induction parts with
  | nil => simp [partsCallbacks] at hmem
  | cons part parts ih =>
    rw [partsCallbacks, List.mem_append] at hmem
    rcases hmem with hmem | hmem
    · cases part with
      | headerBlock fields =>
        simp only [Part.callbacks, List.mem_append, List.mem_map, List.mem_singleton] at hmem
        rcases hmem with ⟨h, -, rfl⟩ | rfl
        · rintro ⟨-, hcat, -⟩
          cases hcat
        · exact id
      | data chunks =>
        simp only [Part.callbacks, List.mem_append, List.mem_map, List.mem_singleton] at hmem
        rcases hmem with ⟨chunk, -, rfl⟩ | rfl <;> exact id
    · exact ih hmem

/-- A response that starts with an interim header block announces no status at all. -/
theorem not_announces_of_interim {callback : Callback} {status : ℕ} {fields : List Header}
    (hstatus : 100 ≤ status ∧ status < 200) (hregular : ∀ h ∈ fields, h.name ≠ ascii ":status")
    (hmem : callback ∈ partsCallbacks streamId .response (statusBlock status fields :: parts)) :
    ¬ Announces streamId callback := by
  rw [partsCallbacks, List.mem_append] at hmem
  rcases hmem with hmem | hmem
  · simp only [statusBlock, Part.callbacks, List.mem_append, List.mem_map, List.mem_cons,
      List.not_mem_nil, or_false] at hmem
    rcases hmem with ⟨h, rfl | hfield, rfl⟩ | rfl
    · rintro ⟨-, -, -, hfinal⟩
      rw [statusOf_decimal status (by omega)] at hfinal
      omega
    · rintro ⟨-, -, hname, -⟩
      exact hregular h hfield hname
    · exact id
  · exact not_announces_of_headers hmem

theorem concerns_of_announces {callback : Callback} (h : Announces streamId callback) :
    concerns streamId callback = true := by
  cases callback with
  | header frame name value => simpa [concerns] using h.1
  | dataChunk id data => exact h.elim
  | frameRecv frame => exact h.elim
  | streamClose id errorCode => exact h.elim

/-! ### Bodies that are not allowed -/

theorem deliver_responseBodyAllowed {callback : Callback} (h : ¬ Announces ctx.streamId callback)
    (hnot : ctx.responseBodyAllowed = false) :
    (deliver ctx callback).2.responseBodyAllowed = false := by
  cases callback with
  | header frame name value =>
    simp only [deliver, onHeaderCallback]
    split_ifs with hid _ hstatus hinterim
    · exact hnot
    · exact hnot
    · rfl
    · exact absurd ⟨not_not.mp hid, hstatus.2.1, hstatus.2.2, hinterim⟩ h
    · exact hnot
  | dataChunk id data =>
    simp only [deliver, onDataChunkRecvCallback]
    split_ifs <;> exact hnot
  | frameRecv frame =>
    simp only [deliver, onFrameRecvCallback]
    split_ifs <;> exact hnot
  | streamClose id errorCode =>
    simp only [deliver, onStreamCloseCallback]
    split_ifs <;> exact hnot

/-- A byte of a body that is not allowed is fatal. -/
theorem eq_nil_of_not_fatal {callbacks : List Callback} (hnot : ctx.responseBodyAllowed = false)
    (hquiet : ∀ callback ∈ callbacks, ¬ Announces ctx.streamId callback)
    (hok : (memRecv ctx callbacks).1 = false) {data : Bytes}
    (hmem : .dataChunk ctx.streamId data ∈ callbacks) : data = [] := by
  -- the induction is on the calls: each of them leaves the body forbidden
  induction callbacks generalizing ctx with
  | nil => simp at hmem
  | cons callback callbacks ih =>
    rw [memRecv_cons] at hok
    cases hfatal : (deliver ctx callback).1 with
    | true =>
      rw [if_pos hfatal, hfatal] at hok
      cases hok
    | false =>
      rw [hfatal, if_neg Bool.false_ne_true] at hok
      have hquiet' := hquiet callback (List.mem_cons_self ..)
      rcases List.mem_cons.mp hmem with rfl | hmem
      · -- a chunk with data would have been fatal
        by_contra hne
        have hpos := List.length_pos_of_ne_nil hne
        rw [deliver, onDataChunkRecvCallback, if_neg (by simp), if_pos ⟨hnot, hpos⟩] at hfatal
        cases hfatal
      · refine ih (deliver_responseBodyAllowed hquiet' hnot) ?_ hok ?_
        · intro callback' hmem'
          rw [deliver_streamId]
          exact hquiet callback' (List.mem_cons_of_mem _ hmem')
        · rwa [deliver_streamId]

theorem dataChunk_mem_partsCallbacks {cat : HeadersCategory} {data : Bytes} {chunks : List Bytes}
    (hpart : .data chunks ∈ parts) (hchunk : data ∈ chunks) :
    .dataChunk streamId data ∈ partsCallbacks streamId cat parts := by
  induction parts generalizing cat with
  | nil => simp at hpart
  | cons part parts ih =>
    rw [partsCallbacks, List.mem_append]
    rcases List.mem_cons.mp hpart with rfl | hpart
    · left
      rw [Part.callbacks, List.mem_append, List.mem_map]
      exact .inl ⟨data, hchunk, rfl⟩
    · exact .inr (ih hpart)

/-- The calls for a response whose body is not allowed are fatal. -/
theorem memRecv_fatal_of_forbidden {status : ℕ} {fields : List Header}
    (hid : streamId = ctx.streamId) (hstatus : 200 ≤ status ∧ status < 600)
    (hregular : ∀ h ∈ fields, h.name ≠ ascii ":status") (hstart : ctx.responseHeaderBytes = 0)
    (hnot : (ctx.answered status).responseBodyAllowed = false)
    (hcontent : parts.flatMap Part.content ≠ []) :
    (memRecv ctx (partsCallbacks streamId .response (statusBlock status fields :: parts))).1 = true := by
  -- a status has at most three digits, so the first header fits
  have hlen : ∀ status < 600, (decimal status).length ≤ 3 := by
    decide +kernel
  have hdecimal := hlen status hstatus.2
  have hfirst := @deliver_status ctx streamId status parts.isEmpty hid hstatus (by omega)
  set ctx' := (ctx.answered status).took (7 + (decimal status).length) []
  have hid' : ctx'.streamId = streamId := hid.symm
  have hnot' : ctx'.responseBodyAllowed = false := hnot
  set rest := (fields.map fun h => Callback.header ⟨.headers, streamId, parts.isEmpty, .response⟩
    h.name h.value) ++ [.frameRecv ⟨.headers, streamId, parts.isEmpty, .response⟩] ++
      partsCallbacks streamId .headers parts with hrest
  have hsplit : partsCallbacks streamId .response (statusBlock status fields :: parts) =
      .header ⟨.headers, streamId, parts.isEmpty, .response⟩ (ascii ":status") (decimal status) ::
        rest := by
    rw [hrest, partsCallbacks, statusBlock, Part.callbacks, List.map_cons]
    rfl
  -- nothing behind the status allows a body
  have hquiet : ∀ callback ∈ rest, ¬ Announces ctx'.streamId callback := by
    intro callback hmem
    rw [hid']
    rw [hrest, List.mem_append, List.mem_append, List.mem_map, List.mem_singleton] at hmem
    rcases hmem with (⟨h, hfield, rfl⟩ | rfl) | hmem
    · rintro ⟨-, -, hname, -⟩
      exact hregular h hfield hname
    · exact id
    · exact not_announces_of_headers hmem
  -- were no call fatal, every chunk of the body would be empty
  rw [hsplit, memRecv_cons_of_eq hfirst]
  by_contra hok
  apply hcontent
  rw [List.flatMap_eq_nil_iff]
  intro part hpart
  cases part with
  | headerBlock fields => rfl
  | data chunks =>
    rw [Part.content, List.flatten_eq_nil_iff]
    intro data hchunk
    refine eq_nil_of_not_fatal hnot' hquiet (Bool.eq_false_iff.mpr hok) ?_
    rw [hid', hrest, List.mem_append]
    exact .inr (dataChunk_mem_partsCallbacks hpart hchunk)

/-! ### Whole requests -/

/-- The request gets as far as the loop. -/
def Submits (dial : Dial) (outside : Exchange) (engine : Http2Engine) (req : Request) : Prop :=
  (hasCrlf req.host || hasCrlf req.connectHost || hasCrlf req.method || hasCrlf req.path) = false ∧
    ∃ connection reused, ensureConnection dial engine.settings engine.connection req =
        .ok (connection, reused) ∧ (reused = false → outside.settings = .ok) ∧
      outside.alpn = ascii "h2" ∧ (∃ custom, customHeaders req.headers = some custom) ∧
      0 ≤ outside.streamId

theorem request_of_submits {dial : Dial} {outside : Exchange} {engine : Http2Engine} {req : Request}
    (h : Submits dial outside engine req) :
    ∃ reused, (request dial outside engine req).1 = (exchange req outside reused).1 := by
  obtain ⟨hcrlf, connection, reused, hconn, hsettings, halpn, ⟨custom, hcustom⟩, hid⟩ := h
  have hsettings' : ¬ (reused = false ∧ outside.settings ≠ .ok) := fun h => h.2 (hsettings h.1)
  refine ⟨reused, ?_⟩
  unfold request
  rw [hcrlf, if_neg Bool.false_ne_true, hconn]
  dsimp only
  rw [if_neg hsettings', if_neg (not_not.mpr halpn), hcustom]
  dsimp only
  rw [if_neg (not_lt.mpr hid)]

/-- The request is answered with OK and what the response says. -/
def Accepts (dial : Dial) (outside : Exchange) (engine : Http2Engine) (req : Request)
    (m : Message req.method) : Prop :=
  (request dial outside engine req).1.errCode = .ok ∧
    (request dial outside engine req).1.httpStatus = m.status ∧
    (request dial outside engine req).1.body = m.body

theorem Message.tail_content {method : Bytes} (m : Message method) :
    m.tail.flatMap Part.content = m.body := by
  have hdata : (m.data.map Part.data).flatMap Part.content = m.body := by
    rw [Message.body, List.flatten_flatten, List.flatMap_def, List.map_map]
    rfl
  have htrailers : (m.trailers.toList.map Part.headerBlock).flatMap Part.content = [] := by
    simp [Part.content]
  rw [Message.tail, List.flatMap_append, hdata, htrailers, List.append_nil]

theorem ne_status_of_regular {fields : List Header} (h : ∀ h ∈ fields, h.name.head? ≠ some 58) :
    ∀ h ∈ fields, h.name ≠ ascii ":status" := by
  intro field hmem hname
  apply h field hmem
  rw [hname]
  rfl

/-- A response without interim blocks is accepted. -/
theorem loop_of_final {req : Request} {outside : Exchange} (m : Message req.method)
    (hdel : Delivers outside.streamId m.parts outside.turns) (hheader : m.headerBytes ≤ 64 * 1024)
    (hbody : m.body.length ≤ req.maxResponseBodyBytes.toNat) (hnone : m.interim = []) :
    ∃ last, loop (newContext req outside.streamId) outside.turns = (.ok, last) ∧
      judge .ok last = .ok ∧ last.httpStatus = m.status ∧ last.respBody = m.body := by
  have hparts : m.parts = statusBlock m.status m.fields :: m.tail := by
    rw [Message.parts, hnone]
    rfl
  rw [Message.headerBytes, hparts, List.map_cons, List.sum_cons] at hheader
  rw [hparts] at hdel
  -- a regular field is not a second `:status`
  have hregular : ∀ h ∈ m.fields, h.name ≠ ascii ":status" :=
    ne_status_of_regular fun h hmem => m.regular_fields h (by simp [hmem])
  have hallowed : ((newContext req outside.streamId).answered m.status).responseBodyAllowed = false →
      m.tail.flatMap Part.content = [] := by
    intro hnot
    rw [m.tail_content]
    apply m.no_body
    have hnot' : req.method = ascii "HEAD" ∨ (m.status : ℤ) = 204 ∨ (m.status : ℤ) = 304 := by
      simpa [H2Ctx.answered, newContext, imp_iff_not_or, or_assoc] using hnot
    exact_mod_cast hnot'
  have hrun := @memRecv_response (newContext req outside.streamId)
    outside.streamId m.status m.fields m.tail rfl m.final_status hregular
    (by simpa [newContext] using hheader) hallowed
    (by rw [m.tail_content]; simpa [newContext] using hbody)
  have hid : (((newContext req outside.streamId).answered m.status).took
      ((statusBlock m.status m.fields).headerBytes + (m.tail.map Part.headerBytes).sum)
      (m.tail.flatMap Part.content)).streamId = (newContext req outside.streamId).streamId := rfl
  -- the loop ends with the context of one batch, up to what the verdict does not read
  obtain ⟨last, hloop, hlast⟩ := loop_of_delivers hdel rfl hid hrun
  -- the context differs from the expected one in what the verdict does not read
  refine ⟨last, hloop, ?_, ?_, ?_⟩
  · have hjudge : judge .ok last = judge .ok last.calm := rfl
    rw [hjudge, hlast]
    rfl
  · have hstatus : last.httpStatus = last.calm.httpStatus := rfl
    rw [hstatus, hlast]
    rfl
  · have hcontent : last.respBody = last.calm.respBody := rfl
    rw [hcontent, hlast, ← m.tail_content]
    rfl

/-- A response that starts with an interim block fails. -/
theorem errCode_ne_ok_of_interim {req : Request} {outside : Exchange} (reused : Bool) {status : ℕ}
    {fields : List Header} (hdel : Delivers outside.streamId (statusBlock status fields :: parts)
      outside.turns)
    (hstatus : 100 ≤ status ∧ status < 200) (hregular : ∀ h ∈ fields, h.name ≠ ascii ":status") :
    (exchange req outside reused).1.errCode ≠ .ok := by
  obtain ⟨closing, hclosing, hcalls⟩ := hdel.callbacks
  have hquiet : ∀ callback ∈ outside.turns.flatMap Turn.callbacks,
      ¬ Announces outside.streamId callback := by
    intro callback hcallback hannounces
    have hconcerns : callback ∈ (outside.turns.flatMap Turn.callbacks).filter
        (concerns outside.streamId) :=
      List.mem_filter.mpr ⟨hcallback, concerns_of_announces hannounces⟩
    rw [hcalls, List.mem_append] at hconcerns
    rcases hconcerns with hpart | hclose
    · exact not_announces_of_interim hstatus hregular hpart hannounces
    · rcases hclosing with rfl | rfl
      · simp at hclose
      · rw [List.mem_singleton] at hclose
        rw [hclose] at hannounces
        exact hannounces
  have hnone := @loop_gotStatus (newContext req outside.streamId) outside.turns hquiet
  exact judge_ne_ok hnone

/-- A response with a body that is not allowed fails. -/
theorem errCode_ne_ok_of_forbidden {req : Request} {outside : Exchange} (reused : Bool) {status : ℕ}
    {fields : List Header} (hdel : Delivers outside.streamId (statusBlock status fields :: parts)
      outside.turns)
    (hstatus : 200 ≤ status ∧ status < 600) (hregular : ∀ h ∈ fields, h.name ≠ ascii ":status")
    (hnot : ((newContext req outside.streamId).answered status).responseBodyAllowed = false)
    (hcontent : parts.flatMap Part.content ≠ []) :
    (exchange req outside reused).1.errCode ≠ .ok := by
  obtain ⟨closing, hclosing, hcalls⟩ := hdel.callbacks
  set ctx := newContext req outside.streamId
  have hfatal : (memRecv ctx.calm (partsCallbacks outside.streamId .response
      (statusBlock status fields :: parts))).1 = true :=
    memRecv_fatal_of_forbidden rfl hstatus hregular rfl hnot hcontent
  -- the whole sequence of calls is fatal, and so is that of the loop
  have hall : (memRecv ctx (outside.turns.flatMap Turn.callbacks)).1 = true := by
    have hcalm := memRecv_calm ctx (outside.turns.flatMap Turn.callbacks)
    have hid : ctx.streamId = outside.streamId := rfl
    rw [hid, hcalls, memRecv_append, if_pos hfatal] at hcalm
    rw [hcalm] at hfatal
    exact hfatal
  have hopen : ∀ pre, pre <+: outside.turns.flatMap Turn.callbacks → (memRecv ctx pre).1 = false →
      (memRecv ctx pre).2.streamClosed = false := by
    intro pre hpre hok
    by_contra hclosed
    have hcalm := memRecv_calm ctx pre
    have hfilter := hpre.filter (concerns outside.streamId)
    rw [hcalls] at hfilter
    have hclosed' : (memRecv ctx.calm (pre.filter (concerns outside.streamId))).2.streamClosed =
        true := by
      have hid : ctx.streamId = outside.streamId := rfl
      rw [← hid, hcalm]
      simpa using hclosed
    -- a stream that is closed has seen the fatal call
    have hlong : (memRecv ctx.calm (pre.filter (concerns outside.streamId))).1 = true := by
      rcases @eq_of_prefix_of_closed ctx.calm _ _ _ _ _ _ rfl hclosing hfilter hclosed' with heq | heq
      · rw [heq, hfatal]
      · rw [heq, memRecv_append, if_pos hfatal, hfatal]
    have hid : ctx.streamId = outside.streamId := rfl
    rw [← hid, hcalm, hok] at hlong
    cases hlong
  have hloop := loop_of_fatal hdel.undisturbed hopen hall
  rcases hresult : loop ctx outside.turns with ⟨ret, last⟩
  rw [hresult] at hloop
  obtain rfl : ret = .errProtocol := hloop
  rw [exchange, hresult]
  dsimp only
  unfold judge
  split_ifs <;> simp

/-- **Which legal responses are accepted**: those without interim header blocks. -/
theorem accepts_iff {dial : Dial} {outside : Exchange} {engine : Http2Engine} {req : Request}
    (m : Message req.method) (hsubmits : Submits dial outside engine req)
    (hdel : Delivers outside.streamId m.parts outside.turns) (hheader : m.headerBytes ≤ 64 * 1024)
    (hbody : m.body.length ≤ req.maxResponseBodyBytes.toNat) :
    Accepts dial outside engine req m ↔ m.interim = [] := by
  obtain ⟨reused, hreq⟩ := request_of_submits hsubmits
  rw [Accepts, hreq]
  constructor
  · rintro ⟨hok, -⟩
    by_contra hsome
    obtain ⟨block, blocks, hinterim⟩ := List.exists_cons_of_ne_nil hsome
    have hmem : block ∈ m.interim := by simp [hinterim]
    have hregular : ∀ h ∈ block.2, h.name ≠ ascii ":status" :=
      ne_status_of_regular fun h hfield => m.regular_fields h
        (List.mem_append_left _ (List.mem_append_left _ (List.mem_flatMap.mpr ⟨block, hmem, hfield⟩)))
    rw [Message.parts, hinterim, List.map_cons, List.cons_append] at hdel
    exact errCode_ne_ok_of_interim reused hdel (m.interim_status block hmem) hregular hok
  · intro hnone
    obtain ⟨last, hloop, hok, hstatus, hcontent⟩ := loop_of_final m hdel hheader hbody hnone
    rw [exchange, hloop]
    exact ⟨hok, hstatus, hcontent⟩

/-- `200` with two bytes and a trailer. -/
def okMessage : Message (ascii "GET") where
  interim := []
  status := 200
  fields := [⟨ascii "server", ascii "x"⟩]
  data := [[ascii "h", ascii "i"], []]
  trailers := some [⟨ascii "grpc-status", ascii "0"⟩]
  interim_status := by simp
  final_status := by decide
  regular_fields := by decide
  no_body := by decide

/-- The same behind `103`. -/
def hintedMessage : Message (ascii "GET") where
  interim := [(103, [⟨ascii "link", ascii "</a>"⟩])]
  status := 200
  fields := [⟨ascii "server", ascii "x"⟩]
  data := [[ascii "h", ascii "i"]]
  trailers := none
  interim_status := by decide
  final_status := by decide
  regular_fields := by decide
  no_body := by decide

/-- An exchange on stream 1 that delivers these frames in two batches. -/
def exchangeOf (parts : List Part) : Exchange where
  streamId := 1
  turns := [.received ((partsCallbacks 1 .response parts).take 1), .idle,
    .received ((partsCallbacks 1 .response parts).drop 1 ++ [.streamClose 1 0])]

/-- Every connection opens. -/
def dialOk : Dial := fun _ _ => .ok ()

theorem submits_exchangeOf (parts : List Part) (req : Request) (h : (hasCrlf req.host ||
    hasCrlf req.connectHost || hasCrlf req.method || hasCrlf req.path) = false)
    (hheaders : req.headers = []) : Submits dialOk (exchangeOf parts) {} req :=
  ⟨h, _, false, rfl, fun _ => rfl, rfl, ⟨[], by rw [hheaders]; rfl⟩, by simp [exchangeOf]⟩

theorem delivers_exchangeOf (parts : List Part) (h : (partsCallbacks 1 .response parts).all
    (concerns 1) = true) : Delivers 1 parts (exchangeOf parts).turns := by
  refine ⟨by simp [exchangeOf], [.streamClose 1 0], .inr rfl, ?_⟩
  have hcalls : (exchangeOf parts).turns.flatMap Turn.callbacks =
      partsCallbacks 1 .response parts ++ [.streamClose 1 0] := by
    simp only [exchangeOf, List.flatMap_cons, List.flatMap_nil, Turn.callbacks, List.nil_append,
      List.append_nil]
    rw [← List.append_assoc, List.take_append_drop]
  rw [hcalls, List.filter_append, List.filter_eq_self.mpr (List.all_eq_true.mp h)]
  rfl

theorem accepts_okMessage_iff :
    Accepts dialOk (exchangeOf okMessage.parts) {} { host := ascii "h" } okMessage ↔
      okMessage.interim = [] :=
  @accepts_iff dialOk (exchangeOf okMessage.parts) {} { host := ascii "h" } okMessage
    (submits_exchangeOf okMessage.parts _ (by decide) rfl)
    (delivers_exchangeOf okMessage.parts (by decide +kernel)) (by decide +kernel) (by decide +kernel)

theorem not_accepts_hintedMessage :
    Submits dialOk (exchangeOf hintedMessage.parts) {} { host := ascii "h" } ∧
      Delivers 1 hintedMessage.parts (exchangeOf hintedMessage.parts).turns ∧
      hintedMessage.headerBytes ≤ 64 * 1024 ∧
      hintedMessage.body.length ≤ ({ host := ascii "h" } : Request).maxResponseBodyBytes.toNat ∧
      ¬ Accepts dialOk (exchangeOf hintedMessage.parts) {} { host := ascii "h" } hintedMessage := by
  refine ⟨submits_exchangeOf hintedMessage.parts _ (by decide) rfl,
    delivers_exchangeOf hintedMessage.parts (by decide +kernel), by decide +kernel,
    by decide +kernel, ?_⟩
  rintro ⟨hok, -⟩
  have herr : (request dialOk (exchangeOf hintedMessage.parts) {} { host := ascii "h" }).1.errCode =
      .errProtocol := by
    decide +kernel
  rw [herr] at hok
  cases hok

end Http2

end AsterNet
