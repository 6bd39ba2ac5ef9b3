import AsterNet.Engine.Http3.Equiv.Whole

/-!
# A finished response does not always stay finished

Once the response is complete the loop stops at its next test, but the events of the same poll are
dispatched before that.  The notifications about the connection look at `finished` first; the others
flag their failures all the same.  `Harmless` says which events flag none, and `finished_stays_iff` that
the complete response is answered exactly when all the events left in the poll are of that kind.
-/

namespace AsterNet

namespace Http3

open ByteString

variable {limit : ℕ} {ctx : RequestContext} {heard : Heard} {req : Request} {outside : Exchange}

/-- An event that does no harm to a finished response: no failing send, socket or read, no refused
piece, and no stream error. -/
def Event.Harmless (limit : ℕ) (ctx : RequestContext) (heard : Heard) : Event → Prop
  | .certRejected | .connClose | .closing _ => True
  | .socketFailed => False
  | .streamClose streamErr => streamErr = 0
  | .writable results => (ctx.h3Request && sendFails ctx.remaining results) = false
  | .handshake outcome => (!ctx.h3Request && outcome.fails ctx.remaining) = false
  | .readable notify => notify.Accepted limit heard

/-- Every event is harmless where it happens. -/
def HarmlessFrom (limit : ℕ) : RequestContext → Heard → List Event → Prop
  | _, _, [] => True
  | ctx, heard, event :: events => event.Harmless limit ctx heard ∧
      HarmlessFrom limit (handle ctx event) (event.pieces.foldl Heard.take heard) events

/-! ### After the end of the response -/

theorem taken_iff_harmless (hended : heard.ended = true) (event : Event) :
    event.Taken limit ctx heard ↔ event.Harmless limit ctx heard := by
  cases event with
  | connClose => exact iff_of_true hended trivial
  | closing err => exact iff_of_true hended trivial
  | streamClose streamErr => exact and_iff_left hended
  | _ => exact Iff.rfl

theorem takenAll_iff_harmlessFrom (hended : heard.ended = true) (events : List Event) :
    TakenAll limit ctx heard events ↔ HarmlessFrom limit ctx heard events := by
  induction events generalizing ctx heard with
  | nil => exact Iff.rfl
  | cons event events ih =>
    have hended' : (event.pieces.foldl Heard.take heard).ended = true := by
      rw [Heard.foldl_take_ended, hended, Bool.true_or]
    exact and_congr (taken_iff_harmless hended event) (ih hended')

theorem takenAll_append {events events' : List Event} : TakenAll limit ctx heard (events ++ events') ↔
    TakenAll limit ctx heard events ∧
      TakenAll limit (events.foldl handle ctx) ((handedOutBy events).foldl Heard.take heard) events' := by
  induction events generalizing ctx heard with
  | nil => simp [TakenAll, handedOutBy]
  | cons event events ih =>
    rw [handedOutBy, List.flatMap_cons, List.foldl_append, List.foldl_cons, List.cons_append, TakenAll,
      TakenAll, ih, and_assoc]
    rfl

/-- Events that leave no failure were taken in. -/
theorem takenAll_of_not_failed (h : Sound limit ctx heard) (events : List Event)
    (hfailed : (events.foldl handle ctx).failed = false) : TakenAll limit ctx heard events := by
  by_contra hnot
  rw [(sound_foldl h events).2 hnot] at hfailed
  cases hfailed

/-- Once the response has ended the loop stops. -/
theorem stops_of_ended (h : Sound limit ctx heard) (hended : heard.ended = true) (events : List Event) :
    ((events.foldl handle ctx).finished || (events.foldl handle ctx).failed) = true := by
  by_cases hall : TakenAll limit ctx heard events
  · have hsound := (sound_foldl h events).1 hall
    rw [hsound.finished, Heard.foldl_take_ended, hended]
    simp
  · rw [(sound_foldl h events).2 hall, Bool.or_true]

/-! ### The poll in which the response finishes -/

/-- The polls before one that is made were all made. -/
theorem dispatched_append (h : Sound limit ctx heard) {done : List (List Event)}
    (hopen : (done.flatten.foldl handle ctx).finished = false)
    (hfailed : (done.flatten.foldl handle ctx).failed = false) (polls : List (List Event)) :
    dispatched ctx (done ++ polls) = done.flatten ++ dispatched (done.flatten.foldl handle ctx) polls := by
  induction done generalizing ctx heard with
  | nil => rfl
  | cons events done ih =>
    have hrunning : heard.ended = false := by
      by_contra hended
      have hstop := stops_of_ended h (Bool.eq_true_of_not_eq_false hended) (events :: done).flatten
      rw [hopen, hfailed] at hstop
      cases hstop
    rw [List.flatten_cons, List.foldl_append] at hopen hfailed ⊢
    have htaken : TakenAll limit ctx heard events := by
      have hall := takenAll_of_not_failed h (events ++ done.flatten)
        (by rw [List.foldl_append]; exact hfailed)
      exact (takenAll_append.mp hall).1
    have hsound := (sound_foldl h events).1 htaken
    rw [List.cons_append, dispatched, h.finished, hrunning, h.not_failed, ih hsound hopen hfailed,
      List.append_assoc]
    rfl

/-- The context after these events of a request. -/
def contextAfter (req : Request) (events : List Event) : RequestContext :=
  events.foldl handle (newContext req)

/-- The response is finished by `event`, in the poll after `done`, with `before` and `after` beside it. -/
structure Finishes (req : Request) (outside : Exchange) (done : List (List Event))
    (before : List Event) (event : Event) (after : List Event) : Prop where
  connected : outside.early = none
  polls : ∃ later, outside.polls = done ++ (before ++ event :: after) :: later
  /-- The poll is made. -/
  made : (contextAfter req done.flatten).finished = false ∧ (contextAfter req done.flatten).failed = false
  unfinished : (contextAfter req (done.flatten ++ before)).finished = false
  finished : (handle (contextAfter req (done.flatten ++ before)) event).finished = true

section

variable {done : List (List Event)} {before after : List Event} {event : Event}

/-- Before the response finished nothing had failed. -/
theorem Finishes.sound (h : Finishes req outside done before event after) :
    Sound req.maxResponseBodyBytes.toNat (contextAfter req (done.flatten ++ before))
        (heardIn (done.flatten ++ before)) ∧
      TakenAll req.maxResponseBodyBytes.toNat (newContext req) {} (done.flatten ++ before) := by
  have hfailed : (contextAfter req (done.flatten ++ before)).failed = false := by
    by_contra hne
    -- after a failure nothing finishes
    have hstuck : Stuck false (contextAfter req (done.flatten ++ before)) :=
      ⟨Bool.eq_true_of_not_eq_false hne, h.unfinished⟩
    have hfinished := (hstuck.handle event).finished_eq
    rw [h.finished] at hfinished
    cases hfinished
  have hall := takenAll_of_not_failed (sound_newContext req) _ hfailed
  exact ⟨(sound_foldl (sound_newContext req) _).1 hall, hall⟩

/-- The loop dispatches what is left of the poll, and no more. -/
theorem Finishes.eventsOf_eq (h : Finishes req outside done before event after) :
    eventsOf req outside = done.flatten ++ before ++ event :: after := by
  obtain ⟨later, hpolls⟩ := h.polls
  obtain ⟨hopen, hfailed⟩ := h.made
  -- a context that is finished or failed ends the loop, whatever polls were left
  have hrest : ∀ ctx : RequestContext, (ctx.finished || ctx.failed) = true →
      dispatched ctx later = [] := by
    intro ctx hstop
    cases later with
    | nil => rfl
    | cons events polls => rw [dispatched, if_pos hstop]
  have hstop : (((before ++ event :: after).foldl handle (contextAfter req done.flatten)).finished ||
      ((before ++ event :: after).foldl handle (contextAfter req done.flatten)).failed) = true := by
    -- the rest of the poll is dispatched before the loop looks at the context again
    have hctx : (before ++ event :: after).foldl handle (contextAfter req done.flatten) =
        after.foldl handle (handle (contextAfter req (done.flatten ++ before)) event) := by
      rw [contextAfter, contextAfter, List.foldl_append, List.foldl_append, List.foldl_cons]
    rw [hctx]
    obtain ⟨htaken, hrefused⟩ := sound_handle h.sound.1 event
    by_cases hevent : event.Taken req.maxResponseBodyBytes.toNat
        (contextAfter req (done.flatten ++ before)) (heardIn (done.flatten ++ before))
    · have hsound := htaken hevent
      exact stops_of_ended hsound (hsound.finished.symm.trans h.finished) after
    · have hstuck := Stuck.foldl ⟨hrefused hevent, rfl⟩ after
      rw [hstuck.failed, Bool.or_true]
  rw [eventsOf, hpolls, dispatched_append (sound_newContext req) hopen hfailed]
  unfold contextAfter at hopen hfailed hstop
  rw [dispatched, hopen, hfailed, hrest _ hstop, List.append_nil, List.append_assoc]
  rfl

end

/-- Only a read notification finishes a response. -/
theorem exists_readable_of_finished (h : Sound limit ctx heard) (hopen : ctx.finished = false)
    {event : Event} (hfinished : (handle ctx event).finished = true) :
    ∃ notify, event = .readable notify := by
  -- every other event leaves `finished` as it is
  have hne : ∀ ctx' : RequestContext, ctx'.finished = ctx.finished → ctx'.finished ≠ true := by
    intro ctx' heq
    rw [heq, hopen]
    simp
  cases event with
  | readable notify => exact ⟨notify, rfl⟩
  | handshake outcome =>
    obtain ⟨created, sent, failed, heq⟩ := handshakeFinished_eq ctx outcome
    rw [handle, heq] at hfinished
    exact absurd hfinished (hne _ rfl)
  | writable results =>
    obtain ⟨sent, failed, heq⟩ := sendPendingBody_eq ctx results
    rw [handle, heq] at hfinished
    exact absurd hfinished (hne _ rfl)
  | certRejected => exact absurd hfinished (hne _ rfl)
  | socketFailed => exact absurd hfinished (hne _ rfl)
  | connClose =>
    rw [handle, hopen] at hfinished
    exact absurd hfinished (hne _ hopen.symm)
  | closing err =>
    rw [handle, hopen] at hfinished
    exact absurd hfinished (hne _ hopen.symm)
  | streamClose streamErr =>
    have hfin : ctx.responseFin = false := h.responseFin.trans (h.finished.symm.trans hopen)
    rw [handle, closeNotify, if_pos (.inr (.inl hfin))] at hfinished
    exact absurd hfinished (hne _ rfl)

/-- **When a finished response stays finished**: the request is answered with OK and the complete body
exactly when the event that finishes the response and all events left in that poll do no harm. -/
theorem finished_stays_iff {done : List (List Event)} {before after : List Event} {event : Event}
    (h : Finishes req outside done before event after) :
    (∃ status, request outside req =
        { errCode := .ok, httpStatus := status
          body := (heardIn (done.flatten ++ before ++ event :: after)).content }) ↔
      HarmlessFrom req.maxResponseBodyBytes.toNat (contextAfter req (done.flatten ++ before))
        (heardIn (done.flatten ++ before)) (event :: after) := by
  obtain ⟨hsound, hbefore⟩ := h.sound
  -- the event is a read notification that brought the end
  obtain ⟨notify, rfl⟩ := exists_readable_of_finished hsound h.unfinished h.finished
  have hended : (Event.readable notify).Taken req.maxResponseBodyBytes.toNat
      (contextAfter req (done.flatten ++ before)) (heardIn (done.flatten ++ before)) →
      (notify.pieces.foldl Heard.take (heardIn (done.flatten ++ before))).ended = true := fun htaken =>
    ((sound_handle hsound (.readable notify)).1 htaken).finished.symm.trans h.finished
  -- what the loop dispatched is taken in when the rest of the poll does no harm
  have hiff : TakenAll req.maxResponseBodyBytes.toNat (newContext req) {} (eventsOf req outside) ↔
      HarmlessFrom req.maxResponseBodyBytes.toNat (contextAfter req (done.flatten ++ before))
        (heardIn (done.flatten ++ before)) (.readable notify :: after) := by
    rw [h.eventsOf_eq, takenAll_append]
    refine (and_iff_right hbefore).trans (and_congr_right fun htaken => ?_)
    exact takenAll_iff_harmlessFrom (hended htaken) after
  rw [← hiff]
  constructor
  · rintro ⟨status, hreply⟩
    exact ((request_ok_iff h.connected).mp (by rw [hreply])).1
  · intro hall
    have hok : (request outside req).errCode = .ok := by
      refine (request_ok_iff h.connected).mpr ⟨hall, ?_⟩
      -- what comes behind the end adds no piece that counts
      have htaken := (hiff.mp hall).1
      have hfold : heardIn (eventsOf req outside) = (handedOutBy after).foldl Heard.take
          (notify.pieces.foldl Heard.take (heardIn (done.flatten ++ before))) := by
        rw [h.eventsOf_eq, heardIn, heardIn, handedOutBy, handedOutBy, handedOutBy, List.flatMap_append,
          List.foldl_append, List.flatMap_cons, List.foldl_append]
        rfl
      rw [hfold, Heard.foldl_take_ended, hended htaken, Bool.true_or]
    obtain ⟨status, -, hreply⟩ := reply_of_ok h.connected hok
    rw [h.eventsOf_eq] at hreply
    exact ⟨status, hreply⟩

/-! ### A server that answers early and stops the upload -/

/-- The headers come with the whole body while the request body waits to be sent. -/
def earlyAnswer : Event :=
  .readable
    { header := some (some ([⟨ascii ":status", ascii "200"⟩], false))
      body := some [.data (ascii "ok") true] }

/-- The request body is sent in part, and the answer comes with these events in one poll. -/
def upload (after : List Event) : Exchange where
  polls := [[.handshake (.sent [.sent 1, .again])], earlyAnswer :: after]

def uploadRequest : Request := { host := ascii "h", method := ascii "POST", body := ascii "abc" }

theorem finishes_upload (after : List Event) :
    Finishes uploadRequest (upload after) [[.handshake (.sent [.sent 1, .again])]] [] earlyAnswer
      after where
  connected := rfl
  polls := ⟨[], rfl⟩
  made := by decide +kernel
  unfinished := by decide +kernel
  finished := by decide +kernel

/-- **A finished response may still fail**: the stream is closed with an error in the same poll. -/
theorem not_finished_stays : ¬ ∀ req outside done before event after,
    Finishes req outside done before event after → ∃ status, request outside req =
      { errCode := .ok, httpStatus := status
        body := (heardIn (done.flatten ++ before ++ event :: after)).content } := by
  intro hall
  obtain ⟨status, hreply⟩ := hall _ _ _ _ _ _ (finishes_upload [.streamClose 268])
  have hcode : (request (upload [.streamClose 268]) uploadRequest).errCode = .errProtocol := by
    decide +kernel
  rw [hreply] at hcode
  cases hcode

/-- With a connection that closes in the same poll, the response is answered. -/
theorem finished_stays_upload :
    (∃ status, request (upload [.connClose]) uploadRequest =
        { errCode := .ok, httpStatus := status
          body := (heardIn ([.handshake (.sent [.sent 1, .again]), earlyAnswer, .connClose])).content }) ↔
      HarmlessFrom uploadRequest.maxResponseBodyBytes.toNat
        (contextAfter uploadRequest [.handshake (.sent [.sent 1, .again])])
        (heardIn [.handshake (.sent [.sent 1, .again])]) [earlyAnswer, .connClose] :=
  finished_stays_iff (finishes_upload [.connClose])

end Http3

end AsterNet
