import AsterNet.Engine.Http2.Message

/-!
# The callbacks over a stream

What `memRecv` and the loop make of the calls for one stream.

* `memRecv_calm`: calls for other streams and the connection change nothing but `goawayReceived`.
* `exists_prefix_of_loop`: the loop stops after a batch at whose end the stream is closed.
* `memRecv_parts`: the frames behind the first header block, when they fit.
-/

namespace AsterNet

namespace Http2

open ByteString

variable {ctx ctx' : H2Ctx} {callback : Callback} {callbacks : List Callback} {streamId : ℤ}

/-! ### Other streams -/

/-- The context without what concerns the whole connection. -/
def H2Ctx.calm (ctx : H2Ctx) : H2Ctx := { ctx with goawayReceived := false }

@[simp]
theorem calm_streamId (ctx : H2Ctx) : ctx.calm.streamId = ctx.streamId := rfl

@[simp]
theorem calm_streamClosed (ctx : H2Ctx) : ctx.calm.streamClosed = ctx.streamClosed := rfl

theorem deliver_streamId (ctx : H2Ctx) (callback : Callback) :
    (deliver ctx callback).2.streamId = ctx.streamId := by
  cases callback with
  | header frame name value =>
    simp only [deliver, onHeaderCallback]
    split_ifs <;> rfl
  | dataChunk id data =>
    simp only [deliver, onDataChunkRecvCallback]
    split_ifs <;> rfl
  | frameRecv frame =>
    simp only [deliver, onFrameRecvCallback]
    split_ifs <;> rfl
  | streamClose id errorCode =>
    simp only [deliver, onStreamCloseCallback]
    split_ifs <;> rfl

theorem deliver_of_not_concerns (h : concerns ctx.streamId callback = false) :
    (deliver ctx callback).1 = false ∧ (deliver ctx callback).2.calm = ctx.calm := by
  cases callback with
  | header frame name value =>
    have hid : frame.streamId ≠ ctx.streamId := by simpa [concerns] using h
    simp [deliver, onHeaderCallback, hid]
  | dataChunk id data =>
    have hid : id ≠ ctx.streamId := by simpa [concerns] using h
    simp [deliver, onDataChunkRecvCallback, hid]
  | frameRecv frame =>
    simp only [deliver, onFrameRecvCallback, true_and]
    split_ifs with hgoaway hid hend
    · rfl
    · rfl
    · have htypes : frame.type = .data ∨ frame.type = .headers := hend.1
      rcases htypes with htype | htype <;> simp [concerns, htype, not_not.mp hid] at h
    · rfl
  | streamClose id errorCode =>
    have hid : id ≠ ctx.streamId := by simpa [concerns] using h
    simp [deliver, onStreamCloseCallback, hid]

theorem deliver_calm (h : concerns ctx.streamId callback = true) :
    deliver ctx.calm callback = ((deliver ctx callback).1, (deliver ctx callback).2.calm) := by
  cases ctx
  cases callback with
  | header frame name value =>
    dsimp only [deliver, onHeaderCallback, H2Ctx.calm]
    split_ifs <;> rfl
  | dataChunk id data =>
    dsimp only [deliver, onDataChunkRecvCallback, H2Ctx.calm]
    split_ifs <;> rfl
  | frameRecv frame =>
    have hgoaway : frame.type ≠ .goaway := by
      intro hgoaway
      simp [concerns, hgoaway] at h
    dsimp only [deliver, onFrameRecvCallback, H2Ctx.calm]
    rw [if_neg hgoaway, if_neg hgoaway]
    split_ifs <;> rfl
  | streamClose id errorCode =>
    dsimp only [deliver, onStreamCloseCallback, H2Ctx.calm]
    split_ifs <;> rfl

theorem memRecv_cons (ctx : H2Ctx) (callback : Callback) (callbacks : List Callback) :
    memRecv ctx (callback :: callbacks) =
      if (deliver ctx callback).1 then deliver ctx callback
      else memRecv (deliver ctx callback).2 callbacks := by
  rw [memRecv]
  rcases deliver ctx callback with ⟨fatal, ctx'⟩
  cases fatal <;> rfl

theorem memRecv_cons_of_eq (h : deliver ctx callback = (false, ctx')) (callbacks : List Callback) :
    memRecv ctx (callback :: callbacks) = memRecv ctx' callbacks := by
  rw [memRecv_cons, h]
  rfl

/-- Only the calls about the stream matter, up to `goawayReceived`. -/
theorem memRecv_calm (ctx : H2Ctx) (callbacks : List Callback) :
    memRecv ctx.calm (callbacks.filter (concerns ctx.streamId)) =
      ((memRecv ctx callbacks).1, (memRecv ctx callbacks).2.calm) := by
  induction callbacks generalizing ctx with
  | nil => rfl
  | cons callback callbacks ih =>
    have hid := deliver_streamId ctx callback
    rw [memRecv_cons]
    cases hconcerns : concerns ctx.streamId callback with
    | false =>
      obtain ⟨hfatal, hcalm⟩ := deliver_of_not_concerns hconcerns
      rw [List.filter_cons_of_neg (by simp [hconcerns]), hfatal, if_neg Bool.false_ne_true, ← ih,
        hcalm, hid]
    | true =>
      rw [List.filter_cons_of_pos hconcerns, memRecv_cons, deliver_calm hconcerns]
      split_ifs
      · rfl
      · rw [← ih, hid]

theorem memRecv_append (ctx : H2Ctx) (callbacks callbacks' : List Callback) :
    memRecv ctx (callbacks ++ callbacks') =
      if (memRecv ctx callbacks).1 then memRecv ctx callbacks
      else memRecv (memRecv ctx callbacks).2 callbacks' := by
  induction callbacks generalizing ctx with
  | nil => rfl
  | cons callback callbacks ih =>
    rw [List.cons_append, memRecv_cons, memRecv_cons]
    split_ifs
    · simp [*]
    · rw [ih]
      simp [*]
    · rw [ih]
      simp [*]

/-- Batches that are not fatal are one batch. -/
theorem memRecv_append_of_eq (h : memRecv ctx callbacks = (false, ctx')) (callbacks' : List Callback) :
    memRecv ctx (callbacks ++ callbacks') = memRecv ctx' callbacks' := by
  rw [memRecv_append, h]
  rfl

theorem memRecv_streamId (ctx : H2Ctx) (callbacks : List Callback) :
    (memRecv ctx callbacks).2.streamId = ctx.streamId := by
  induction callbacks generalizing ctx with
  | nil => rfl
  | cons callback callbacks ih =>
    rw [memRecv_cons]
    split_ifs
    · exact deliver_streamId ctx callback
    · rw [ih, deliver_streamId]

/-! ### The loop -/

/-- The loop stops after the first batch at whose end the stream is closed. -/
theorem exists_prefix_of_loop {turns : List Turn}
    (hturns : ∀ turn ∈ turns, turn = .idle ∨ ∃ callbacks, turn = .received callbacks)
    (h : memRecv ctx (turns.flatMap Turn.callbacks) = (false, ctx'))
    (hclosed : ctx'.streamClosed = true) :
    ∃ pre, pre <+: turns.flatMap Turn.callbacks ∧ ∃ last, memRecv ctx pre = (false, last) ∧
      last.streamClosed = true ∧ loop ctx turns = (.ok, last) := by
  -- the induction is on the turns, up to the first that closes the stream
  induction turns generalizing ctx with
  | nil =>
    obtain rfl : ctx = ctx' := by simpa [memRecv] using h
    exact ⟨[], List.nil_prefix, ctx, rfl, hclosed, by rw [loop, if_pos hclosed]⟩
  | cons turn turns ih =>
    by_cases hnow : ctx.streamClosed = true
    · exact ⟨[], List.nil_prefix, ctx, rfl, hnow, by rw [loop.eq_def]; exact if_pos hnow⟩
    have hrest := fun turn h => hturns turn (List.mem_cons_of_mem _ h)
    obtain rfl | ⟨callbacks, rfl⟩ := hturns turn (List.mem_cons_self ..)
    · have hloop : loop ctx (.idle :: turns) = loop ctx turns := by
        rw [loop, if_neg hnow]
      rw [hloop]
      exact ih hrest h
    · -- the first batch is not fatal, so the loop goes on behind it
      have hall : memRecv ctx (callbacks ++ turns.flatMap Turn.callbacks) = (false, ctx') := h
      rw [memRecv_append] at hall
      cases hfatal : (memRecv ctx callbacks).1 with
      | true =>
        rw [if_pos hfatal] at hall
        rw [hall] at hfatal
        cases hfatal
      | false =>
        rw [hfatal, if_neg Bool.false_ne_true] at hall
        obtain ⟨pre, hpre, last, hlast, hlastClosed, hloop⟩ := ih hrest hall
        have hbatch : memRecv ctx callbacks = (false, (memRecv ctx callbacks).2) := by
          rw [← hfatal]
        refine ⟨callbacks ++ pre, (List.prefix_append_right_inj callbacks).mpr hpre, last, ?_,
          hlastClosed, ?_⟩
        · rw [memRecv_append_of_eq hbatch, hlast]
        · rw [loop, if_neg hnow, hbatch]
          exact hloop

/-- A fatal call ends the loop, when it comes before the stream is closed. -/
theorem loop_of_fatal {turns : List Turn}
    (hturns : ∀ turn ∈ turns, turn = .idle ∨ ∃ callbacks, turn = .received callbacks)
    (hopen : ∀ pre, pre <+: turns.flatMap Turn.callbacks → (memRecv ctx pre).1 = false →
      (memRecv ctx pre).2.streamClosed = false)
    (hfatal : (memRecv ctx (turns.flatMap Turn.callbacks)).1 = true) :
    (loop ctx turns).1 = .errProtocol := by
  -- the induction is on the turns; the stream is open before each of them
  induction turns generalizing ctx with
  | nil => cases hfatal
  | cons turn turns ih =>
    have hnow : ¬ ctx.streamClosed = true := Bool.eq_false_iff.mp (hopen [] List.nil_prefix rfl)
    have hrest := fun turn h => hturns turn (List.mem_cons_of_mem _ h)
    obtain rfl | ⟨callbacks, rfl⟩ := hturns turn (List.mem_cons_self ..)
    · have hloop : loop ctx (.idle :: turns) = loop ctx turns := by
        rw [loop, if_neg hnow]
      rw [hloop]
      exact ih hrest hopen hfatal
    · have hall : (memRecv ctx (callbacks ++ turns.flatMap Turn.callbacks)).1 = true := hfatal
      rw [loop, if_neg hnow]
      rcases hbatch : memRecv ctx callbacks with ⟨_ | _, ctx'⟩
      · -- this batch is not the fatal one
        rw [memRecv_append_of_eq hbatch] at hall
        refine ih hrest (fun pre hpre hok => ?_) hall
        rw [← memRecv_append_of_eq hbatch pre] at hok ⊢
        exact hopen _ ((List.prefix_append_right_inj callbacks).mpr hpre) hok
      · rfl

/-! ### Closing the stream -/

/-- The calls that close the stream. -/
def closes : Callback → Bool
  | .frameRecv frame => frame.endStream
  | .streamClose _ _ => true
  | _ => false

theorem deliver_streamClosed (h : closes callback = false) :
    (deliver ctx callback).2.streamClosed = ctx.streamClosed := by
  cases callback with
  | header frame name value =>
    simp only [deliver, onHeaderCallback]
    split_ifs <;> rfl
  | dataChunk id data =>
    simp only [deliver, onDataChunkRecvCallback]
    split_ifs <;> rfl
  | frameRecv frame =>
    have hend : frame.endStream = false := h
    simp only [deliver, onFrameRecvCallback, hend, Bool.false_eq_true, and_false, if_false]
    split_ifs <;> rfl
  | streamClose id errorCode => cases h

theorem memRecv_streamClosed (h : ∀ callback ∈ callbacks, closes callback = false) :
    (memRecv ctx callbacks).2.streamClosed = ctx.streamClosed := by
  induction callbacks generalizing ctx with
  | nil => rfl
  | cons callback callbacks ih =>
    have hfirst := @deliver_streamClosed ctx callback (h callback (List.mem_cons_self ..))
    rw [memRecv_cons]
    split_ifs
    · exact hfirst
    · rw [ih fun callback hmem => h callback (List.mem_cons_of_mem _ hmem), hfirst]

/-- Only the last call for the frames of a stream closes it. -/
theorem partsCallbacks_eq_concat (streamId : ℤ) (cat : HeadersCategory) (part : Part)
    (parts : List Part) : ∃ init last, partsCallbacks streamId cat (part :: parts) = init ++ [last] ∧
      ∀ callback ∈ init, closes callback = false := by
  induction parts generalizing part cat with
  | nil =>
    cases part with
    | headerBlock fields =>
      refine ⟨_, _, List.append_nil _, ?_⟩
      simp [closes]
    | data chunks =>
      refine ⟨_, _, List.append_nil _, ?_⟩
      simp [closes]
  | cons next parts ih =>
    obtain ⟨init, last, heq, hinit⟩ := ih .headers next
    refine ⟨part.callbacks streamId cat false ++ init, last, ?_, ?_⟩
    · rw [partsCallbacks, heq, List.append_assoc]
      rfl
    · intro callback hmem
      rcases List.mem_append.mp hmem with hmem | hmem
      · cases part <;> simp only [Part.callbacks, List.mem_append, List.mem_map,
          List.mem_singleton] at hmem <;> rcases hmem with ⟨_, _, rfl⟩ | rfl <;> rfl
      · exact hinit callback hmem

/-! ### The frames of a stream -/

/-- The context after so many header bytes and this content. -/
def H2Ctx.took (ctx : H2Ctx) (headerBytes : ℕ) (content : Bytes) : H2Ctx :=
  { ctx with
    responseHeaderBytes := ctx.responseHeaderBytes + headerBytes
    respBody := ctx.respBody ++ content }

/-- What END_STREAM does to the context. -/
def H2Ctx.ended (ctx : H2Ctx) : H2Ctx :=
  { ctx with gotEndStream := true, streamError := 0, streamClosed := true }

@[simp]
theorem took_responseHeaderBytes (ctx : H2Ctx) (n : ℕ) (s : Bytes) :
    (ctx.took n s).responseHeaderBytes = ctx.responseHeaderBytes + n := rfl

@[simp]
theorem took_respBody (ctx : H2Ctx) (n : ℕ) (s : Bytes) :
    (ctx.took n s).respBody = ctx.respBody ++ s := rfl

theorem took_zero (ctx : H2Ctx) : ctx.took 0 [] = ctx := by
  simp [H2Ctx.took]

theorem took_took (ctx : H2Ctx) (m n : ℕ) (s t : Bytes) :
    (ctx.took m s).took n t = ctx.took (m + n) (s ++ t) := by
  simp [H2Ctx.took, Nat.add_assoc]

/-- A field is only counted when it is not the `:status` of a block of category `response`. -/
theorem deliver_field {frame : Frame} {h : Header} (hid : frame.streamId = ctx.streamId)
    (hplain : frame.cat ≠ .response ∨ h.name ≠ ascii ":status")
    (hfit : ctx.responseHeaderBytes + (h.name.length + h.value.length) ≤ 64 * 1024) :
    deliver ctx (.header frame h.name h.value) =
      (false, ctx.took (h.name.length + h.value.length) []) := by
  have hother : ¬ (frame.type = .headers ∧ frame.cat = .response ∧ h.name = ascii ":status") := by
    rintro ⟨-, hcat, hname⟩
    rcases hplain with hplain | hplain
    · exact hplain hcat
    · exact hplain hname
  rw [deliver, onHeaderCallback, if_neg (not_not.mpr hid)]
  dsimp only
  rw [if_neg (by omega), if_neg hother, H2Ctx.took, List.append_nil, Nat.add_assoc]

/-- The fields of a header block are only counted when its category is not `response`, and those that
are not `:status` always. -/
theorem memRecv_fields {frame : Frame} {fields : List Header} (hid : frame.streamId = ctx.streamId)
    (hplain : frame.cat ≠ .response ∨ ∀ h ∈ fields, h.name ≠ ascii ":status")
    (hfit : ctx.responseHeaderBytes + (Part.headerBlock fields).headerBytes ≤ 64 * 1024) :
    memRecv ctx (fields.map fun h => .header frame h.name h.value) =
      (false, ctx.took (Part.headerBlock fields).headerBytes []) := by
  induction fields generalizing ctx with
  | nil => exact Prod.ext rfl (took_zero ctx).symm
  | cons h fields ih =>
    have hsum : (Part.headerBlock (h :: fields)).headerBytes =
        h.name.length + h.value.length + (Part.headerBlock fields).headerBytes := by
      simp [Part.headerBytes]
    rw [hsum] at hfit
    have hfirst := deliver_field hid (hplain.imp_right fun hne => hne h (List.mem_cons_self ..))
      (by omega)
    have hrest : (ctx.took (h.name.length + h.value.length) []).responseHeaderBytes +
        (Part.headerBlock fields).headerBytes ≤ 64 * 1024 := by
      rw [took_responseHeaderBytes]
      omega
    have hplain' : frame.cat ≠ .response ∨ ∀ h ∈ fields, h.name ≠ ascii ":status" :=
      hplain.imp_right fun hne h' hmem => hne h' (List.mem_cons_of_mem _ hmem)
    rw [List.map_cons, memRecv_cons_of_eq hfirst]
    rw [@ih (ctx.took _ []) hid hplain' hrest, took_took, hsum, List.append_nil]

/-- The chunks of a DATA frame are appended when they are allowed and fit. -/
theorem memRecv_chunks {chunks : List Bytes} (hid : streamId = ctx.streamId)
    (hallowed : ctx.responseBodyAllowed = false → chunks.flatten = [])
    (hfit : ctx.respBody.length + chunks.flatten.length ≤ ctx.maxResponseBodyBytes) :
    memRecv ctx (chunks.map (.dataChunk streamId)) = (false, ctx.took 0 chunks.flatten) := by
  induction chunks generalizing ctx with
  | nil => exact Prod.ext rfl (took_zero ctx).symm
  | cons chunk chunks ih =>
    rw [List.flatten_cons, List.length_append] at hfit
    have hnil : ctx.responseBodyAllowed = false → chunk = [] ∧ chunks.flatten = [] := fun hnot => by
      simpa only [List.flatten_cons, List.append_eq_nil_iff] using hallowed hnot
    have hrefused : ¬ (ctx.responseBodyAllowed = false ∧ 0 < chunk.length) := by
      rintro ⟨hnot, hpos⟩
      rw [(hnil hnot).1] at hpos
      exact absurd hpos (Nat.lt_irrefl 0)
    have hfirst : deliver ctx (.dataChunk streamId chunk) = (false, ctx.took 0 chunk) := by
      rw [deliver, onDataChunkRecvCallback, if_neg (not_not.mpr hid), if_neg hrefused,
        if_neg (by omega)]
      rfl
    have hrest : (ctx.took 0 chunk).respBody.length + chunks.flatten.length ≤
        ctx.maxResponseBodyBytes := by
      rw [took_respBody, List.length_append]
      omega
    rw [List.map_cons, memRecv_cons_of_eq hfirst]
    rw [@ih (ctx.took 0 chunk) hid (fun hnot => (hnil hnot).2) hrest, took_took, List.flatten_cons]

/-- One frame that is not the first header block. -/
theorem memRecv_part {part : Part} {endStream : Bool} (hid : streamId = ctx.streamId)
    (hheader : ctx.responseHeaderBytes + part.headerBytes ≤ 64 * 1024)
    (hallowed : ctx.responseBodyAllowed = false → part.content = [])
    (hfit : ctx.respBody.length + part.content.length ≤ ctx.maxResponseBodyBytes) :
    memRecv ctx (part.callbacks streamId .headers endStream) =
      (false, let ctx' := ctx.took part.headerBytes part.content
        if endStream then ctx'.ended else ctx') := by
  cases part with
  | headerBlock fields =>
    have hfields := @memRecv_fields ctx ⟨.headers, streamId, endStream, .headers⟩ fields hid
      (.inl HeadersCategory.noConfusion) hheader
    rw [Part.callbacks, memRecv_append_of_eq hfields, memRecv_cons]
    cases endStream <;> simp [deliver, onFrameRecvCallback, hid, memRecv, H2Ctx.took, H2Ctx.ended,
      Part.content]
  | data chunks =>
    have hchunks := memRecv_chunks hid hallowed hfit
    rw [Part.callbacks, memRecv_append_of_eq hchunks, memRecv_cons]
    cases endStream <;> simp [deliver, onFrameRecvCallback, hid, memRecv, H2Ctx.took, H2Ctx.ended,
      Part.content, Part.headerBytes]

/-- All frames behind the first header block. -/
theorem memRecv_parts {parts : List Part} (hid : streamId = ctx.streamId)
    (hheader : ctx.responseHeaderBytes + (parts.map Part.headerBytes).sum ≤ 64 * 1024)
    (hallowed : ctx.responseBodyAllowed = false → parts.flatMap Part.content = [])
    (hfit : ctx.respBody.length + (parts.flatMap Part.content).length ≤ ctx.maxResponseBodyBytes) :
    memRecv ctx (partsCallbacks streamId .headers parts) =
      (false, let ctx' := ctx.took (parts.map Part.headerBytes).sum (parts.flatMap Part.content)
        if parts = [] then ctx' else ctx'.ended) := by
  -- the induction is on the frames; the limits left are those of the rest
  induction parts generalizing ctx with
  | nil => exact Prod.ext rfl (took_zero ctx).symm
  | cons part parts ih =>
    rw [List.map_cons, List.sum_cons] at hheader
    rw [List.flatMap_cons, List.length_append] at hfit
    have hnil : ctx.responseBodyAllowed = false → part.content = [] ∧
        parts.flatMap Part.content = [] := fun hnot => by
      simpa only [List.flatMap_cons, List.append_eq_nil_iff] using hallowed hnot
    have hpart := @memRecv_part ctx streamId part parts.isEmpty hid (by omega)
      (fun hnot => (hnil hnot).1) (by omega)
    rw [partsCallbacks, memRecv_append_of_eq hpart]
    cases parts with
    | nil => simp [partsCallbacks, memRecv]
    | cons next parts =>
      have hheader' : (ctx.took part.headerBytes part.content).responseHeaderBytes +
          ((next :: parts).map Part.headerBytes).sum ≤ 64 * 1024 := by
        rw [took_responseHeaderBytes]
        omega
      have hfit' : (ctx.took part.headerBytes part.content).respBody.length +
          ((next :: parts).flatMap Part.content).length ≤ ctx.maxResponseBodyBytes := by
        rw [took_respBody, List.length_append]
        omega
      have hrest := @ih (ctx.took part.headerBytes part.content) hid hheader'
        (fun hnot => (hnil hnot).2) hfit'
      rw [took_took] at hrest
      exact hrest

end Http2

end AsterNet
