import AsterNet.Engine.Http2.Session
import AsterNet.Engine.Http2.Equiv.Deliver

/-!
# Request bodies stay on their own stream

* `bodiesOwn_of_stepsMeet`: while every read is for the stream of the request under way, the bytes
  returned for a stream are a prefix of its own body, and the end is flagged when the body is complete.
* `readsOwn_of_drained`: so it is when each request starts after the bodies of the earlier ones have
  been read to the end, or their streams closed.

`data_read_callback` reads the body of the context the session points to, whatever the stream.
-/

namespace AsterNet

namespace Http2

open ByteString Transition

variable {ctx : H2Ctx} {s t : Session} {a : Act} {acts : List Act}

/-- What was returned for the stream is a prefix of its body, and the end is flagged exactly when that
is all of it. -/
def Stream.Own (stream : Stream) : Prop :=
  stream.sent <+: stream.body ∧ (stream.eof = true ↔ stream.sent = stream.body)

instance (stream : Stream) : Decidable stream.Own := inferInstanceAs (Decidable (_ ∧ _))

/-- It is so for all streams of the connection. -/
def BodiesOwn (s : Session) : Prop := ∀ stream ∈ s.streams, stream.Own

instance (s : Session) : Decidable (BodiesOwn s) := inferInstanceAs (Decidable (∀ _ ∈ _, _))

/-- A read is for the stream of the request under way. -/
def ReadsOwn (s : Session) : Act → Prop
  | .dataRead streamId _ => ∀ ctx, s.ctx = some ctx → ctx.streamId = streamId
  | _ => True

/-! ### The read callback -/

/-- What the context says about the body it sends. -/
def H2Ctx.upload (ctx : H2Ctx) : ℤ × Bytes × ℕ := (ctx.streamId, ctx.reqBody, ctx.reqBodySent)

theorem deliver_upload (ctx : H2Ctx) (callback : Callback) :
    (deliver ctx callback).2.upload = ctx.upload := by
  cases callback with
  | header frame name value =>
    simp only [deliver, onHeaderCallback]
    split_ifs <;> rfl
  | dataChunk id data =>
    simp only [deliver, onDataChunkRecvCallback]
    split_ifs <;> rfl
  | frameRecv frame =>
    simp only [deliver, onFrameRecvCallback]
    split_ifs <;> rfl
  | streamClose id errorCode =>
    simp only [deliver, onStreamCloseCallback]
    split_ifs <;> rfl

theorem memRecv_upload (ctx : H2Ctx) (callbacks : List Callback) :
    (memRecv ctx callbacks).2.upload = ctx.upload := by
  induction callbacks generalizing ctx with
  | nil => rfl
  | cons callback callbacks ih =>
    rw [memRecv_cons]
    split_ifs
    · exact deliver_upload ctx callback
    · rw [ih, deliver_upload]

/-- The callback goes on in the body of the context, up to its end, and flags the end when it is
reached. -/
theorem dataReadCallback_spec (hsent : ctx.reqBodySent ≤ ctx.reqBody.length) (length : ℕ) :
    ∃ sent, ctx.reqBodySent ≤ sent ∧ sent ≤ ctx.reqBody.length ∧
      dataReadCallback ctx length =
        ((ctx.reqBody.drop ctx.reqBodySent).take (sent - ctx.reqBodySent),
          decide (ctx.reqBody.length ≤ sent), { ctx with reqBodySent := sent }) := by
  refine ⟨ctx.reqBodySent + min (ctx.reqBody.length - ctx.reqBodySent) length, by omega, by omega, ?_⟩
  have hn : (if ctx.reqBody.length - ctx.reqBodySent < length then
      ctx.reqBody.length - ctx.reqBodySent else length) =
        min (ctx.reqBody.length - ctx.reqBodySent) length := by
    split_ifs <;> omega
  rw [dataReadCallback, hn, Nat.add_sub_cancel_left]
  -- nothing is written when nothing remains or the buffer is empty
  rcases Nat.eq_zero_or_pos (min (ctx.reqBody.length - ctx.reqBodySent) length) with hzero | hpos
  · rw [hzero, if_neg (Nat.lt_irrefl 0), Nat.add_zero]
  · rw [if_pos hpos]

/-! ### The invariant -/

/-- What holds of a connection: earlier streams have smaller ids, and the stream of the request under
way has been sent what the context says. -/
structure Uploads (s : Session) : Prop where
  own : BodiesOwn s
  below : ∀ stream ∈ s.streams, stream.id < s.nextStreamId
  ctx_below : ∀ ctx, s.ctx = some ctx → ctx.streamId < s.nextStreamId
  sent_le : ∀ ctx, s.ctx = some ctx → ctx.reqBodySent ≤ ctx.reqBody.length
  current : ∀ ctx, s.ctx = some ctx → ∀ stream ∈ s.streams, stream.id = ctx.streamId →
    stream.body = ctx.reqBody ∧ stream.sent = ctx.reqBody.take ctx.reqBodySent

theorem uploads_start {req : Request} (h : Uploads s) (hs : Steps s (.start req) t) : Uploads t := by
  obtain ⟨-, -, rfl⟩ := steps_start hs
  -- one goal for each field: own bytes, ids, the context, its counter, and the current stream
  constructor
  · intro stream hmem
    rcases List.mem_append.mp hmem with hold | hnew
    · exact h.own stream hold
    · obtain ⟨hbody, rfl⟩ := mem_submitted.mp hnew
      exact ⟨List.nil_prefix, by simp [Ne.symm hbody]⟩
  · intro stream hmem
    dsimp only
    rcases List.mem_append.mp hmem with hold | hnew
    · have := h.below stream hold
      omega
    · obtain ⟨-, rfl⟩ := mem_submitted.mp hnew
      dsimp only
      omega
  · intro ctx hctx
    obtain rfl := Option.some.inj hctx
    dsimp only [newContext]
    omega
  · intro ctx hctx
    obtain rfl := Option.some.inj hctx
    exact Nat.zero_le _
  · intro ctx hctx stream hmem hid
    obtain rfl := Option.some.inj hctx
    rcases List.mem_append.mp hmem with hold | hnew
    · -- an old stream has a smaller number
      have := h.below stream hold
      dsimp only [newContext] at hid
      omega
    · obtain ⟨-, rfl⟩ := mem_submitted.mp hnew
      exact ⟨rfl, rfl⟩

theorem uploads_dataRead {streamId : ℤ} {length : ℕ} (h : Uploads s)
    (hown : ReadsOwn s (.dataRead streamId length)) (hs : Steps s (.dataRead streamId length) t) :
    Uploads t := by
  obtain ⟨ctx, hctx, -, -, rfl⟩ := steps_dataRead hs
  have hid : ctx.streamId = streamId := hown ctx hctx
  obtain ⟨sent, hfrom, hto, hread⟩ := dataReadCallback_spec (h.sent_le ctx hctx) length
  rw [hread]
  -- the stream that reads is the one of the current context
  have hcurrent : ∀ stream ∈ s.streams, stream.id = streamId → stream.body = ctx.reqBody ∧
      stream.sent ++ (ctx.reqBody.drop ctx.reqBodySent).take (sent - ctx.reqBodySent) =
        ctx.reqBody.take sent := by
    intro stream hmem hstream
    obtain ⟨hbody, hsent⟩ := h.current ctx hctx stream hmem (by rw [hstream, hid])
    refine ⟨hbody, ?_⟩
    rw [hsent, ← List.take_add, Nat.add_sub_cancel' hfrom]
  -- the read changes the counter of the context and the stream that was asked for
  constructor
  · intro stream' hmem
    obtain ⟨stream, hstream, rfl⟩ := List.mem_map.mp hmem
    dsimp only
    split_ifs with heq
    · obtain ⟨hbody, hsent⟩ := hcurrent stream hstream heq
      have hold := h.own stream hstream
      have hbefore := (h.current ctx hctx stream hstream (by rw [heq, hid])).2
      rw [Stream.Own, Stream.read]
      dsimp only
      rw [hsent, Bool.or_eq_true, hold.2, decide_eq_true_eq, hbefore, hbody, List.take_eq_self_iff,
        List.take_eq_self_iff]
      exact ⟨List.take_prefix _ _, by omega⟩
    · exact h.own stream hstream
  · intro stream' hmem
    obtain ⟨stream, hstream, rfl⟩ := List.mem_map.mp hmem
    dsimp only
    split_ifs <;> exact h.below stream hstream
  · intro ctx' hctx'
    obtain rfl := Option.some.inj hctx'
    exact h.ctx_below ctx hctx
  · intro ctx' hctx'
    obtain rfl := Option.some.inj hctx'
    exact hto
  · intro ctx' hctx' stream' hmem hstream'
    obtain rfl := Option.some.inj hctx'
    obtain ⟨stream, hstream, rfl⟩ := List.mem_map.mp hmem
    dsimp only at hstream' ⊢
    by_cases heq : stream.id = streamId
    · rw [if_pos heq]
      exact hcurrent stream hstream heq
    · rw [if_neg heq] at hstream'
      exact absurd (hstream'.trans hid) heq

theorem uploads_receive {callbacks : List Callback} (h : Uploads s)
    (hs : Steps s (.receive callbacks) t) : Uploads t := by
  obtain ⟨ctx, ctx', hctx, -, hrecv, rfl⟩ := steps_receive hs
  have hupload := memRecv_upload ctx callbacks
  rw [hrecv, H2Ctx.upload, H2Ctx.upload, Prod.mk.injEq, Prod.mk.injEq] at hupload
  -- callbacks of the receive side do not touch the upload
  obtain ⟨hid, hbody, hsent⟩ := hupload
  constructor
  · intro stream' hmem
    obtain ⟨stream, hstream, rfl⟩ := List.mem_map.mp hmem
    exact h.own stream hstream
  · intro stream' hmem
    obtain ⟨stream, hstream, rfl⟩ := List.mem_map.mp hmem
    exact h.below stream hstream
  · intro ctx'' hctx''
    obtain rfl := Option.some.inj hctx''
    rw [hid]
    exact h.ctx_below ctx hctx
  · intro ctx'' hctx''
    obtain rfl := Option.some.inj hctx''
    rw [hbody, hsent]
    exact h.sent_le ctx hctx
  · intro ctx'' hctx'' stream' hmem hstream'
    obtain rfl := Option.some.inj hctx''
    obtain ⟨stream, hstream, rfl⟩ := List.mem_map.mp hmem
    rw [hbody, hsent]
    rw [hid] at hstream'
    exact h.current ctx hctx stream hstream hstream'

theorem uploads_finish (h : Uploads s) (hs : Steps s .finish t) : Uploads t := by
  obtain ⟨ctx, -, -, -, rfl⟩ := steps_finish hs
  exact ⟨h.own, h.below, by simp, by simp, by simp⟩

theorem uploads_step (h : Uploads s) (hown : ReadsOwn s a) (hs : Steps s a t) : Uploads t := by
  cases a with
  | start req => exact uploads_start h hs
  | dataRead streamId length => exact uploads_dataRead h hown hs
  | receive callbacks => exact uploads_receive h hs
  | finish => exact uploads_finish h hs

/-- **Bodies stay on their own stream** in every run in which nghttp2 reads only for the stream of the
request under way. -/
theorem bodiesOwn_of_stepsMeet (h : StepsMeet Steps ReadsOwn {} acts t) : BodiesOwn t := by
  have hinit : Uploads {} := ⟨by simp [BodiesOwn], by simp, by simp, by simp, by simp⟩
  exact (h.invariant (I := Uploads) (fun s a t hs hown hst => uploads_step hs hown hst) hinit).own

/-- The connection after these acts. -/
def sessionAfter (acts : List Act) : Session := (acts.foldlM act {}).getD {}

/-- A body of two bytes. -/
def postOf (body : String) : Request :=
  { host := ascii "h", method := ascii "POST", body := ascii body }

theorem readsOwn_of_streamId {streamId : ℤ} (h : s.ctx.map H2Ctx.streamId = some streamId) (length : ℕ) :
    ReadsOwn s (.dataRead streamId length) := by
  intro ctx hctx
  simpa [hctx] using h

/-- The body is read in two pieces. -/
theorem bodiesOwn_twoReads :
    BodiesOwn (sessionAfter [.start (postOf "AB"), .dataRead 1 1, .dataRead 1 9]) := by
  have hstart : StepsMeet Steps ReadsOwn {} [.start (postOf "AB")]
      (sessionAfter [.start (postOf "AB")]) := .snoc .nil trivial (by decide +kernel)
  have hfirst : StepsMeet Steps ReadsOwn {} [.start (postOf "AB"), .dataRead 1 1]
      (sessionAfter [.start (postOf "AB"), .dataRead 1 1]) :=
    hstart.snoc (readsOwn_of_streamId (by decide +kernel) 1) (by decide +kernel)
  have hsecond : StepsMeet Steps ReadsOwn {}
      [.start (postOf "AB"), .dataRead 1 1, .dataRead 1 9]
      (sessionAfter [.start (postOf "AB"), .dataRead 1 1, .dataRead 1 9]) :=
    hfirst.snoc (readsOwn_of_streamId (by decide +kernel) 9) (by decide +kernel)
  exact bodiesOwn_of_stepsMeet hsecond

/-- The calls for a response without body on this stream. -/
def earlyResponse (streamId : ℤ) : List Callback :=
  [.header ⟨.headers, streamId, true, .response⟩ (ascii ":status") (ascii "200"),
    .frameRecv ⟨.headers, streamId, true, .response⟩]

/-- The response of the first request comes before its body is read, and its body is read while the
second request is under way: what is sent for stream 1 is the body of the second request. -/
def earlyActs : List Act :=
  [.start (postOf "AB"), .receive (earlyResponse 1), .finish, .start (postOf "XY"), .dataRead 1 9]

theorem exists_run_not_bodiesOwn : ∃ acts t, Run Steps {} acts t ∧ ¬ BodiesOwn t :=
  ⟨earlyActs, sessionAfter earlyActs,
    Run.of_foldlM (show earlyActs.foldlM act {} = some (sessionAfter earlyActs) by decide +kernel),
    by decide +kernel⟩

/-! ### Drained bodies -/

/-- A request starts when no body of an earlier request is read any more. -/
def StartsDrained (s : Session) : Act → Prop
  | .start _ => ∀ stream ∈ s.streams, stream.isRead = false
  | _ => True

/-- Only the body of the request under way is still read. -/
def OthersDone (s : Session) : Prop :=
  ∀ ctx, s.ctx = some ctx → ∀ stream ∈ s.streams, stream.id ≠ ctx.streamId → stream.isRead = false

theorem isRead_read {stream : Stream} {bytes : Bytes} {eof : Bool} (h : stream.isRead = false) :
    (stream.read bytes eof).isRead = false := by
  simp only [Stream.isRead, Stream.read, Bool.and_eq_false_iff, Bool.not_eq_eq_eq_not, Bool.not_false,
    Bool.or_eq_true] at h ⊢
  exact h.imp_left .inl

theorem isRead_afterCallbacks {stream : Stream} {callbacks : List Callback}
    (h : stream.isRead = false) : (stream.afterCallbacks callbacks).isRead = false := by
  simp only [Stream.isRead, Stream.afterCallbacks, Bool.and_eq_false_iff, Bool.not_eq_eq_eq_not,
    Bool.not_false, Bool.or_eq_true] at h ⊢
  exact h.imp_right .inl

theorem othersDone_step (h : OthersDone s) (hdrained : StartsDrained s a) (hs : Steps s a t) :
    OthersDone t := by
  -- a new request begins when every older stream has sent its body
  cases a with
  | start req =>
    obtain ⟨-, -, rfl⟩ := steps_start hs
    intro ctx hctx stream hmem hid
    obtain rfl := Option.some.inj hctx
    rcases List.mem_append.mp hmem with hold | hnew
    · exact hdrained stream hold
    · obtain ⟨-, rfl⟩ := mem_submitted.mp hnew
      exact absurd rfl hid
  -- a stream that reads again has sent its body before, and still has
  | dataRead streamId length =>
    obtain ⟨ctx, hctx, -, -, rfl⟩ := steps_dataRead hs
    intro ctx' hctx' stream' hmem hid
    obtain rfl := Option.some.inj hctx'
    obtain ⟨stream, hstream, rfl⟩ := List.mem_map.mp hmem
    have hkeep : (dataReadCallback ctx length).2.2.streamId = ctx.streamId := by
      simp only [dataReadCallback]
      split_ifs <;> rfl
    rw [hkeep] at hid
    split_ifs at hid ⊢
    · exact isRead_read (h ctx hctx stream hstream hid)
    · exact h ctx hctx stream hstream hid
  | receive callbacks =>
    obtain ⟨ctx, ctx', hctx, -, hrecv, rfl⟩ := steps_receive hs
    have hkeep := memRecv_streamId ctx callbacks
    rw [hrecv] at hkeep
    intro ctx'' hctx'' stream' hmem hid
    obtain rfl := Option.some.inj hctx''
    obtain ⟨stream, hstream, rfl⟩ := List.mem_map.mp hmem
    rw [hkeep] at hid
    exact isRead_afterCallbacks (h ctx hctx stream hstream hid)
  | finish =>
    obtain ⟨ctx, -, -, -, rfl⟩ := steps_finish hs
    intro ctx' hctx'
    cases hctx'

/-- When each request starts after the earlier bodies are done, every read is for the stream of the
request under way. -/
theorem readsOwn_of_drained (h : StepsMeet Steps StartsDrained {} acts t) :
    StepsMeet Steps ReadsOwn {} acts t := by
  refine (h.imp (I := OthersDone) (fun s a t hs hdrained hst => othersDone_step hs hdrained hst) ?_
    (by simp [OthersDone])).1
  intro s a t hs hdrained hst
  cases a with
  | dataRead streamId length =>
    obtain ⟨ctx, hctx, -, ⟨stream, hmem, hid, hread⟩, -⟩ := steps_dataRead hst
    intro ctx' hctx'
    obtain rfl := Option.some.inj (hctx.symm.trans hctx')
    by_contra hne
    rw [hs ctx hctx stream hmem (by rw [hid]; exact Ne.symm hne)] at hread
    cases hread
  | start req => trivial
  | receive callbacks => trivial
  | finish => trivial

end Http2

end AsterNet
