import AsterNet.Engine.Http3.Equiv.Callbacks

/-!
# Complete responses over HTTP/3

* `request_of_allows`: a response whose pieces are taken in and that ends with its last piece is answered
  with OK, the status last announced in an initial section, and all of its body, however the pieces are
  spread over notifications and polls.
* `request_of_heard`: the same for pieces that may come one after the other.

Events without error take in what they bring (`takenAll_of_fineRun`), hence so does the loop
(`poll_sound`).
-/

namespace AsterNet

namespace Http3

open ByteString

variable {limit : ℕ} {ctx : RequestContext} {heard : Heard}

/-! ### Header sections -/

/-- `:status` is read back. -/
theorem parseHttpStatus_decimal {status : ℕ} (hhigh : status < 600) (hlow : 100 ≤ status) :
    parseHttpStatus (decimal status) = some (status : ℤ) :=
  parseHttpStatus_eq_some_iff.mpr ⟨status, hlow, by omega, rfl, rfl⟩

theorem oneStatus_of_isSection {fields : List Header} (h : IsSection fields) :
    ∃ status, OneStatus fields status := by
  obtain ⟨status, hlow, hhigh, others, rfl, hothers⟩ := h
  refine ⟨status, ⟨ascii ":status", decimal status⟩, ?_, status, hlow, by omega, rfl, rfl⟩
  rw [statusFields_cons_of_eq rfl, statusFields, List.filter_eq_nil_iff.mpr]
  intro field hmem
  simpa using hothers field hmem

theorem announced_of_isSection {fields : List Header} (h : IsSection fields) :
    ∃ status : ℤ, announced fields = some status := by
  obtain ⟨status, hstatus⟩ := oneStatus_of_isSection h
  exact ⟨status, announced_of_oneStatus hstatus⟩

/-! ### Pieces in order -/

/-- No piece comes after the end. -/
def InOrder : Heard → List (Piece × Bool) → Prop
  | _, [] => True
  | heard, piece :: pieces => heard.ended = false ∧ InOrder (heard.take piece) pieces

theorem inOrder_append {pieces pieces' : List (Piece × Bool)} :
    InOrder heard (pieces ++ pieces') ↔
      InOrder heard pieces ∧ InOrder (pieces.foldl Heard.take heard) pieces' := by
  induction pieces generalizing heard with
  | nil => simp [InOrder]
  | cons piece pieces ih => simp only [List.cons_append, InOrder, ih, List.foldl_cons, and_assoc]

/-- When the response has ended no piece comes any more. -/
theorem InOrder.eq_nil {pieces : List (Piece × Bool)} (h : InOrder heard pieces)
    (hended : heard.ended = true) : pieces = [] := by
  cases pieces with
  | nil => rfl
  | cons piece pieces =>
    have hrunning := h.1
    rw [hended] at hrunning
    cases hrunning

theorem Heard.AdmitsAll.allowsAll {pieces : List (Piece × Bool)} (h : heard.AdmitsAll limit pieces) :
    heard.AllowsAll limit pieces ∧ InOrder heard pieces := by
  induction pieces generalizing heard with
  | nil => exact ⟨trivial, trivial⟩
  | cons piece pieces ih =>
    obtain ⟨hfirst, hrest⟩ := h
    obtain ⟨hallows, horder⟩ := ih hrest
    refine ⟨⟨⟨fun fields heq => ?_, hfirst.fits, hfirst.end_status⟩, hallows⟩, hfirst.running, horder⟩
    exact oneStatus_of_isSection (hfirst.section_status fields heq)

/-! ### Events without error -/

theorem bodyFails_of_not_mem {reads : List BodyRead} (h : .failed ∉ reads) :
    bodyFails reads = false := by
  induction reads with
  | nil => rfl
  | cons read reads ih =>
    have hrest : .failed ∉ reads := fun hmem => h (List.mem_cons_of_mem _ hmem)
    cases read with
    | again => rfl
    | failed => exact absurd (List.mem_cons_self ..) h
    | data bytes fin =>
      rw [bodyFails, ih hrest]
      split_ifs <;> rfl

/-- An event without error takes in its pieces when they are allowed. -/
theorem taken_of_fine {event : Event} (h : Sound limit ctx heard) (hfine : event.Fine ctx)
    (hallows : heard.AllowsAll limit event.pieces) : event.Taken limit ctx heard := by
  cases event with
  | readable notify =>
    refine ⟨hfine.header, ?_, hfine.trailer, hallows⟩
    cases hbody : notify.body with
    | none => rfl
    | some reads => exact bodyFails_of_not_mem (hfine.body reads hbody)
  | handshake outcome =>
    have hfailed : (handshakeFinished ctx outcome).failed = ctx.failed := hfine
    rwa [handshakeFinished_failed, h.not_failed, Bool.false_or] at hfailed
  | writable results =>
    have hfailed : (sendPendingBody ctx results).failed = ctx.failed := hfine
    rwa [sendPendingBody_failed, h.not_failed, Bool.false_or] at hfailed
  | streamClose streamErr => exact ⟨hfine.2, h.finished.symm.trans hfine.1⟩
  | connClose => exact h.finished.symm.trans hfine
  | closing err => exact h.finished.symm.trans hfine
  | certRejected => exact hfine.elim
  | socketFailed => exact hfine.elim

theorem takenAll_of_fineRun {events : List Event} (h : Sound limit ctx heard)
    (hfine : FineRun ctx events) (hallows : heard.AllowsAll limit (events.flatMap Event.pieces)) :
    TakenAll limit ctx heard events := by
  induction events generalizing ctx heard with
  | nil => trivial
  | cons event events ih =>
    rw [List.flatMap_cons, Heard.allowsAll_append] at hallows
    have htaken := taken_of_fine h hfine.1 hallows.1
    exact ⟨htaken, ih ((sound_handle h event).1 htaken) hfine.2 hallows.2⟩

theorem fineRun_append {events events' : List Event} : FineRun ctx (events ++ events') ↔
    FineRun ctx events ∧ FineRun (events.foldl handle ctx) events' := by
  induction events generalizing ctx with
  | nil => simp [FineRun]
  | cons event events ih => simp only [List.cons_append, FineRun, ih, List.foldl_cons, and_assoc]

/-! ### The loop -/

/-- The loop ends when the response has ended, with what was heard of it. -/
theorem poll_sound {polls : List (List Event)} (h : Sound limit ctx heard)
    (hfine : FineRun ctx polls.flatten)
    (hallows : heard.AllowsAll limit (polls.flatten.flatMap Event.pieces))
    (horder : InOrder heard (polls.flatten.flatMap Event.pieces))
    (hended : ((polls.flatten.flatMap Event.pieces).foldl Heard.take heard).ended = true) :
    ∃ ctx', poll ctx polls = (false, ctx') ∧
      Sound limit ctx' ((polls.flatten.flatMap Event.pieces).foldl Heard.take heard) := by
  -- the induction is on the polls; the loop looks at the context before each of them
  induction polls generalizing ctx heard with
  | nil =>
    have hfinished : ctx.finished = true := h.finished.trans hended
    exact ⟨ctx, by rw [poll, hfinished]; rfl, h⟩
  | cons events polls ih =>
    unfold poll
    rw [h.not_failed, Bool.or_false]
    by_cases hfinished : ctx.finished = true
    · -- the response is over, so nothing more can come
      have hnil := horder.eq_nil (h.finished.symm.trans hfinished)
      rw [if_pos hfinished, hnil]
      exact ⟨ctx, rfl, h⟩
    · rw [if_neg hfinished]
      -- what this poll brings is taken in, and the rest follows in order
      rw [List.flatten_cons, fineRun_append] at hfine
      rw [List.flatten_cons, List.flatMap_append, Heard.allowsAll_append] at hallows
      rw [List.flatten_cons, List.flatMap_append, inOrder_append] at horder
      rw [List.flatten_cons, List.flatMap_append, List.foldl_append] at hended ⊢
      have htaken := takenAll_of_fineRun h hfine.1 hallows.1
      exact ih ((sound_foldl h events).1 htaken) hfine.2 hallows.2 horder.2 hended

/-! ### The request -/

/-- The events deliver these pieces, without error. -/
structure Delivers (req : Request) (outside : Exchange) (pieces : List (Piece × Bool)) : Prop where
  connected : outside.early = none
  fine : FineRun (newContext req) outside.polls.flatten
  pieces_eq : outside.polls.flatten.flatMap Event.pieces = pieces

/-- What was heard of a complete response is answered. -/
theorem judge_of_sound (h : Sound limit ctx heard) (timedOut : Bool) (hended : heard.ended = true)
    {status : ℤ} (hstatus : heard.status = some status) :
    judge timedOut ctx = { errCode := .ok, httpStatus := status, body := heard.content } := by
  have hgot : ctx.gotStatus = true := by
    rw [h.gotStatus, hstatus]
    rfl
  have hcomplete : responseComplete ctx = true := by
    rw [responseComplete, h.finished, h.responseFin, hended, hgot, h.not_failed]
    rfl
  rw [judge, if_pos hcomplete, h.httpStatus status hstatus, h.content]

/-- **Complete responses are accepted**, in any notifications and polls. -/
theorem request_of_allows {req : Request} {outside : Exchange} {pieces : List (Piece × Bool)}
    {status : ℤ} (hdel : Delivers req outside pieces)
    (hallows : Heard.AllowsAll req.maxResponseBodyBytes.toNat {} pieces) (horder : InOrder {} pieces)
    (hended : (pieces.foldl Heard.take {}).ended = true)
    (hstatus : (pieces.foldl Heard.take {}).status = some status) :
    request outside req =
      { errCode := .ok, httpStatus := status, body := pieces.flatMap fun piece => piece.1.content } := by
  obtain ⟨hconnected, hfine, rfl⟩ := hdel
  obtain ⟨ctx, hpoll, hctx⟩ := poll_sound (sound_newContext req) hfine hallows horder hended
  rw [request, hconnected]
  dsimp only
  rw [hpoll]
  dsimp only
  rw [judge_of_sound hctx false hended hstatus, Heard.foldl_take_content, List.nil_append]

/-- The same for pieces that may come one after the other. -/
theorem request_of_heard {req : Request} {outside : Exchange} {pieces : List (Piece × Bool)}
    {status : ℤ} (hdel : Delivers req outside pieces)
    (hadmits : Heard.AdmitsAll req.maxResponseBodyBytes.toNat {} pieces)
    (hended : (pieces.foldl Heard.take {}).ended = true)
    (hstatus : (pieces.foldl Heard.take {}).status = some status) :
    request outside req =
      { errCode := .ok, httpStatus := status, body := pieces.flatMap fun piece => piece.1.content } :=
  request_of_allows hdel hadmits.allowsAll.1 hadmits.allowsAll.2 hended hstatus

end Http3

end AsterNet
