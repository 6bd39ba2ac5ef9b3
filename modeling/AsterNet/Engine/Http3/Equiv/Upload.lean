import AsterNet.Engine.Http3.Equiv.Driven

/-!
# The request that QUIC sends

`upload_of_run`: in every run of the engine, each request hands its headers to XQUIC at most once, before its
body; the body is offered as what XQUIC has not taken of it so far, and with it ends the stream.  So what
XQUIC has taken is always the beginning of the body: no byte is left out, repeated, or taken from another
request, however often XQUIC takes a part of what it is offered, asks to wait, or fails.

`Sends` ties the context of a request to what has been sent for it, and `Justifies` says of each call what
must have been sent before.
-/

namespace AsterNet

namespace Http3

namespace Drive

open Transition

variable {m m' : Machine} {h : List Event} {r r' : Running} {engine generation : ℕ} {es : List Event}
  {req : Request} {ctx : RequestContext}

/-! ### What has been sent -/

/-- The event hands something of a request to XQUIC. -/
def Event.sends (generation : ℕ) : Event → Bool
  | .headers generation' _ _ => generation' = generation
  | .body generation' _ _ => generation' = generation
  | _ => false

/-- What XQUIC takes of the body of a request. -/
def taken (generation : ℕ) : Event → Bytes
  | .body generation' offered (.sent n) =>
    if generation' = generation ∧ n ≤ offered.length then offered.take n else []
  | _ => []

/-- What XQUIC has taken. -/
def uploaded (generation : ℕ) (h : List Event) : Bytes := h.flatMap (taken generation)

@[simp] theorem uploaded_nil : uploaded generation [] = [] := rfl

@[simp] theorem uploaded_append (es : List Event) :
    uploaded generation (h ++ es) = uploaded generation h ++ uploaded generation es :=
  List.flatMap_append

theorem uploaded_singleton (e : Event) : uploaded generation [e] = taken generation e :=
  List.flatMap_singleton _ _

theorem uploaded_eq_nil (hes : ∀ e ∈ h, e.sends generation = false) : uploaded generation h = [] := by
  refine List.flatMap_eq_nil_iff.mpr fun e he => ?_
  have hsends := hes e he
  unfold taken
  split
  · case h_1 generation' offered n =>
    have hne : ¬ (generation' = generation ∧ n ≤ offered.length) := by
      simp only [Event.sends, decide_eq_false_iff_not] at hsends
      exact fun hboth => hsends hboth.1
    rw [if_neg hne]
  · rfl

/-- What must have been sent before. -/
def Justifies (before : List Event) : Event → Prop
  | .headers generation headers fin => ∃ req, .began generation req ∈ before ∧
      headers = requestHeaders (newContext req) ∧ fin = req.body.isEmpty ∧
      ∀ e ∈ before, e.sends generation = false
  | .body generation offered _ => ∃ req, .began generation req ∈ before ∧
      .headers generation (requestHeaders (newContext req)) false ∈ before ∧
      offered ≠ [] ∧ uploaded generation before ++ offered = req.body
  | _ => True

/-- The context of a request agrees with what has been sent for it. -/
structure Sends (generation : ℕ) (req : Request) (ctx : RequestContext) (h : List Event) : Prop where
  began : .began generation req ∈ h
  headers : requestHeaders ctx = requestHeaders (newContext req)
  body : ctx.body = req.body
  sent_le : ctx.requestBodySent ≤ req.body.length
  /-- Before the stream was opened nothing has been sent. -/
  unopened : ctx.h3Request = false → ctx.requestBodySent = 0 ∧ ∀ e ∈ h, e.sends generation = false
  opened : ctx.h3Request = true →
    .headers generation (requestHeaders (newContext req)) req.body.isEmpty ∈ h ∧
      uploaded generation h = req.body.take ctx.requestBodySent

theorem Sends.of_sending {ctx' : RequestContext} (hs : Sends generation req ctx h)
    (heq : sending ctx' = sending ctx) : Sends generation req ctx' h := by
  simp only [sending, Prod.mk.injEq] at heq
  obtain ⟨hheaders, hbody, hrequest, hsent⟩ := heq
  refine ⟨hs.began, hheaders.trans hs.headers, hbody.trans hs.body, hsent.le.trans hs.sent_le,
    fun hno => ?_, fun hyes => ?_⟩
  · rw [hsent]
    exact hs.unopened (hrequest.symm.trans hno)
  · rw [hsent]
    exact hs.opened (hrequest.symm.trans hyes)

/-- Events that send nothing for the request. -/
theorem Sends.append (hs : Sends generation req ctx h) (hes : ∀ e ∈ es, e.sends generation = false) :
    Sends generation req ctx (h ++ es) where
  began := List.mem_append_left _ hs.began
  headers := hs.headers
  body := hs.body
  sent_le := hs.sent_le
  unopened hno := by
    obtain ⟨hsent, hnone⟩ := hs.unopened hno
    refine ⟨hsent, fun e he => ?_⟩
    rcases List.mem_append.mp he with he | he
    · exact hnone e he
    · exact hes e he
  opened hyes := by
    obtain ⟨hheaders, hup⟩ := hs.opened hyes
    refine ⟨List.mem_append_left _ hheaders, ?_⟩
    rw [uploaded_append, uploaded_eq_nil hes, List.append_nil, hup]

/-! ### `send_pending_body` -/

theorem taken_sent (generation : ℕ) {offered : Bytes} {n : ℕ} (hn : n ≤ offered.length) :
    taken generation (.body generation offered (.sent n)) = offered.take n := by
  simp [taken, hn]

/-- **The step of an upload**: every call offers the rest of the body. -/
theorem Sends.bodyEvents (hs : Sends generation req ctx h) (hj : Justified Justifies h)
    (results : List SendResult) :
    Sends generation req (sendPendingBody ctx results) (h ++ bodyEvents generation ctx results) ∧
      Justified Justifies (h ++ bodyEvents generation ctx results) := by
  induction results generalizing ctx h with
  | nil =>
    simp only [Drive.bodyEvents, bodyCalls, List.map_nil, List.append_nil, sendPendingBody]
    exact ⟨hs, hj⟩
  | cons result results ih =>
    unfold Drive.bodyEvents bodyCalls sendPendingBody
    by_cases hdone : ctx.h3Request = false ∨ ctx.body.length ≤ ctx.requestBodySent
    · rw [if_pos hdone, if_pos hdone, List.map_nil, List.append_nil]
      exact ⟨hs, hj⟩
    rw [if_neg hdone, if_neg hdone]
    obtain ⟨hopened, hrest⟩ := not_or.mp hdone
    rw [Bool.not_eq_false] at hopened
    rw [not_le] at hrest
    obtain ⟨hheaders, hup⟩ := hs.opened hopened
    -- the call that is made
    have hnonempty : req.body.isEmpty = false := by
      rw [List.isEmpty_eq_false_iff, ← hs.body]
      rintro hnil
      simp [hnil] at hrest
    have hcall : Justified Justifies (h ++ [.body generation (ctx.body.drop ctx.requestBodySent) result]) := by
      refine justified_append_singleton_iff.mpr ⟨hj, req, hs.began, ?_, ?_, ?_⟩
      · rw [← hnonempty]
        exact hheaders
      · simpa using hrest
      · rw [hup, hs.body, List.take_append_drop]
    -- an answer that takes nothing
    have hnothing (failed : Bool)
        (htaken : taken generation (.body generation (ctx.body.drop ctx.requestBodySent) result) = []) :
        Sends generation req { ctx with failed := failed }
          (h ++ [.body generation (ctx.body.drop ctx.requestBodySent) result]) := by
      refine ⟨List.mem_append_left _ hs.began, hs.headers, hs.body, hs.sent_le, fun hno => ?_,
        fun hyes => ?_⟩
      · simp [hopened] at hno
      · refine ⟨List.mem_append_left _ hheaders, ?_⟩
        simp [uploaded, htaken] at hup ⊢
        exact hup
    cases result with
    | again => exact ⟨hnothing ctx.failed rfl, hcall⟩
    | failed => exact ⟨hnothing true rfl, hcall⟩
    | sent n =>
      dsimp only
      by_cases hbad : n = 0 ∨ ctx.body.length - ctx.requestBodySent < n
      · rw [if_pos hbad, if_pos hbad]
        refine ⟨hnothing true ?_, hcall⟩
        rcases hbad with rfl | hbad
        · simp [taken]
        · simp [taken, Nat.not_le.mpr hbad]
      · rw [if_neg hbad, if_neg hbad]
        rw [not_or, not_lt] at hbad
        have hnext : Sends generation req { ctx with requestBodySent := ctx.requestBodySent + n }
            (h ++ [.body generation (ctx.body.drop ctx.requestBodySent) (.sent n)]) := by
          have hle : ctx.requestBodySent + n ≤ req.body.length := by
            rw [hs.body] at hbad hrest
            omega
          refine ⟨List.mem_append_left _ hs.began, hs.headers, hs.body, hle, fun hno => ?_, fun hyes => ?_⟩
          · simp [hopened] at hno
          · refine ⟨List.mem_append_left _ hheaders, ?_⟩
            have hle : n ≤ (ctx.body.drop ctx.requestBodySent).length := by simpa using hbad.2
            have htaken := taken_sent generation hle
            rw [uploaded_append, hup, uploaded_singleton, htaken, hs.body, List.take_add]
        have hmore := ih hnext hcall
        simpa [Drive.bodyEvents, List.append_assoc] using hmore

/-! ### The steps -/

/-- The handshake: the headers come before the body, and are sent once. -/
theorem Sends.handshakeEvents (hs : Sends generation req ctx h) (hj : Justified Justifies h)
    (engine : ℕ) (outcome : HandshakeOutcome) :
    Sends generation req (handshakeFinished ctx outcome)
        (h ++ handshakeEvents engine generation ctx outcome) ∧
      Justified Justifies (h ++ handshakeEvents engine generation ctx outcome) := by
  unfold Drive.handshakeEvents handshakeFinished
  by_cases hopened : ctx.h3Request = true
  -- the stream was opened before, so the headers were sent before
  · rw [if_pos hopened, if_pos hopened, List.append_nil]
    exact ⟨hs, hj⟩
  rw [if_neg hopened, if_neg hopened]
  rw [Bool.not_eq_true] at hopened
  obtain ⟨hsent, hnone⟩ := hs.unopened hopened
  -- creating the stream sends nothing
  have hcreate : ∀ e ∈ [Event.called engine generation .requestCreate], e.sends generation = false := by
    simp [Event.sends]
  have hs₁ := hs.append hcreate
  have hj₁ : Justified Justifies (h ++ [.called engine generation .requestCreate]) :=
    hj.append_of_forall (by simp [Justifies])
  -- the headers are handed to XQUIC
  have hj₂ : Justified Justifies (h ++ [.called engine generation .requestCreate] ++
      [.headers generation (requestHeaders ctx) ctx.body.isEmpty]) := by
    refine justified_append_singleton_iff.mpr ⟨hj₁, req, hs₁.began, hs.headers, by rw [hs.body], ?_⟩
    exact (hs₁.unopened hopened).2
  have hs₂ (failed : Bool) : Sends generation req { ctx with h3Request := true, failed := failed }
      (h ++ [.called engine generation .requestCreate] ++
        [.headers generation (requestHeaders ctx) ctx.body.isEmpty]) := by
    refine ⟨List.mem_append_left _ hs₁.began, hs.headers, hs.body, hs.sent_le, fun hno => by simp at hno,
      fun _ => ?_⟩
    constructor
    · rw [← hs.headers, ← hs.body]
      simp
    · rw [uploaded_append, uploaded_eq_nil (hs₁.unopened hopened).2]
      simp [hsent, uploaded, taken]
  -- the three ways the handshake ends
  cases outcome with
  | createFailed => exact ⟨hs₁.of_sending rfl, hj₁⟩
  | sendHeadersFailed =>
    refine ⟨?_, ?_⟩
    · simpa using hs₂ true
    · simpa using hj₂
  | sent results =>
    have hmore := (hs₂ ctx.failed).bodyEvents hj₂ results
    simpa using hmore

theorem Quiet.sends_eq_false {e : Event} (hquiet : Quiet r engine e) (generation : ℕ) :
    e.sends generation = false := by
  cases e <;> first | rfl | exact hquiet.elim

theorem Quiet.justifies {e : Event} (hquiet : Quiet r engine e) (before : List Event) :
    Justifies before e := by
  cases e <;> trivial

/-- The context hears of something, and nothing has been sent yet. -/
theorem Sends.heard (hs : Sends generation req ctx h) (hj : Justified Justifies h) (event : Http3.Event) :
    Sends generation req ctx (h ++ [.heard generation event]) ∧
      Justified Justifies (h ++ [.heard generation event]) :=
  ⟨hs.append (by simp [Event.sends]), hj.append_of_forall (by simp [Justifies])⟩

/-- What happens to a running request. -/
theorem Work.upload (hwork : Work r engine r' es) (hs : Sends r.generation req r.ctx h)
    (hj : Justified Justifies h) :
    Sends r.generation req r'.ctx (h ++ es) ∧ Justified Justifies (h ++ es) := by
  cases hwork with
  | tested => exact ⟨hs.append (by simp [Event.sends]), hj.append_of_forall (by simp [Justifies])⟩
  | quiet hes _ hsending =>
    exact ⟨(hs.of_sending hsending).append fun e he => (hes e he).sends_eq_false _,
      hj.append_of_forall fun e he => (hes e he).justifies⟩
  | handshake outcome =>
    obtain ⟨hs, hj⟩ := hs.heard hj (.handshake outcome)
    have hboth := hs.handshakeEvents hj engine outcome
    rw [List.append_assoc] at hboth
    exact hboth
  | writable results =>
    obtain ⟨hs, hj⟩ := hs.heard hj (.writable results)
    have hboth := hs.bodyEvents hj results
    rw [List.append_assoc] at hboth
    exact hboth

/-- What every move keeps. -/
structure Uploading (m : Machine) (h : List Event) : Prop where
  justified : Justified Justifies h
  running : ∀ r, m.curReq = some r → r.cleanupStarted = false →
    ∃ req, Sends r.generation req r.ctx h

/-- Events that send nothing, and after which no request runs. -/
theorem Uploading.append (hu : Uploading m h) (hjustifies : ∀ e ∈ es, ∀ before, Justifies before e)
    (hnone : ∀ r, m'.curReq = some r → r.cleanupStarted = true) : Uploading m' (h ++ es) where
  justified := hu.justified.append_of_forall hjustifies
  running r hreq hclean := by
    rw [hnone r hreq] at hclean
    cases hclean

theorem uploading_of_move (hg : Generations m h) (hu : Uploading m h) (hm : Move m m' es) :
    Uploading m' (h ++ es) := by
  cases hm with
  | refused _ h' _ hmade hsockets =>
    refine hu.append ?_ (by simp [h'.curReq])
    -- a refused request sends nothing
    obtain rfl | ⟨fd, rfl⟩ := hsockets <;> cases hmade <;> simp [Justifies]
  | @started made req r engine _ hmade h' hnext hctx =>
    refine ⟨hu.justified.append_of_forall ?_, fun r' hreq _ => ?_⟩
    · cases hmade <;> simp [Justifies]
    · obtain rfl : r = r' := Option.some.inj (h'.curReq.symm.trans hreq)
      rw [hctx]
      refine ⟨req, by simp, rfl, rfl, Nat.zero_le _, fun _ => ⟨rfl, ?_⟩, fun hyes => by cases hyes⟩
      -- a new generation has sent nothing before
      have hlt : m.requestGeneration < r.generation := by
        rw [h'.generation, hnext]
        exact Nat.lt_succ_self _
      have hstarts : ∀ e ∈ made ++ [.opened r.sockFd, .began r.generation req,
          .called engine r.generation .connect], e.sends r.generation = false := by
        cases hmade <;> simp [Event.sends]
      intro e he
      rcases List.mem_append.mp he with he | he
      · have hne := hg.ne_of_lt hlt e he
        cases e <;> first | rfl | simpa [Event.sends, Event.generation] using hne
      · exact hstarts e he
  | worked h h' hgeneration hwork =>
    obtain ⟨req, hs⟩ := hu.running _ h.curReq h.cleanup
    obtain ⟨hs', hj'⟩ := hwork.upload hs hu.justified
    -- the work goes on where the request left off
    refine ⟨hj', fun r' hreq _ => ?_⟩
    obtain rfl := Option.some.inj (h'.curReq.symm.trans hreq)
    refine ⟨req, ?_⟩
    rw [hwork.generation_eq]
    exact hs'
  | unconnected _ h' => exact hu.append (by simp [Justifies]) (by simp [h'.curReq])
  | ended _ h' => exact hu.append (by simp [Justifies]) (by simp [h'.curReq])
  | cleaned _ h' _ _ _ hes =>
    refine hu.append (fun e he before => ?_) (by simp [h'.curReq, h'.cleanup])
    obtain ⟨event, rfl⟩ := hes e he
    trivial
  | released _ h' => exact hu.append (by simp [Justifies]) (by simp [h'.curReq])
  | dropped _ h' => exact hu.append (by simp [Justifies]) (by simp [h'.curReq])

/-! ### Every run -/

/-- What XQUIC has taken grows with each call by what it takes of the rest. -/
theorem uploaded_isPrefix (hj : Justified Justifies h)
    (hone : ∀ req', .began generation req' ∈ h → req' = req) : uploaded generation h <+: req.body := by
  induction h using List.reverseRecOn with
  | nil => exact List.nil_prefix
  | append_singleton h e ih =>
    obtain ⟨hj, he⟩ := justified_append_singleton_iff.mp hj
    have hbefore := ih hj fun req' hmem => hone req' (List.mem_append_left _ hmem)
    rw [uploaded_append, uploaded_singleton]
    unfold taken
    split
    · case h_1 generation' offered n =>
      split_ifs with hof
      · obtain ⟨rfl, -⟩ := hof
        obtain ⟨req', hbegan, -, -, hrest⟩ := he
        obtain rfl := hone req' (List.mem_append_left _ hbegan)
        rw [← hrest]
        exact (List.prefix_append_right_inj _).mpr (List.take_prefix n offered)
      · rw [List.append_nil]
        exact hbefore
    · rw [List.append_nil]
      exact hbefore

/-- The requests of a run, as XQUIC gets them. -/
structure Uploads (m : Machine) (h : List Event) : Prop where
  /-- Headers once and first, then the rest of the body each time. -/
  justified : Justified Justifies h
  /-- What XQUIC has taken is the beginning of the body. -/
  beginning : ∀ generation req, .began generation req ∈ h → uploaded generation h <+: req.body
  /-- `request_body_sent` is how much that is; before the stream is open nothing is sent. -/
  sent : ∀ r, m.curReq = some r → r.cleanupStarted = false → ∃ req, .began r.generation req ∈ h ∧
    r.ctx.requestBodySent ≤ req.body.length ∧
    uploaded r.generation h = req.body.take r.ctx.requestBodySent ∧
    (r.ctx.h3Request = false →
      r.ctx.requestBodySent = 0 ∧ ∀ e ∈ h, e.sends r.generation = false)

/-- **The upload of a request**: XQUIC gets the headers once and first, and the body in order, without a gap
and without a byte twice. -/
theorem upload_of_run {acts : List Act} (hrun : Run Steps ({}, []) acts (m, h)) : Uploads m h := by
  obtain ⟨hg, hu⟩ := invariant_of_run_current (I := Uploading) ⟨justified_nil, by simp⟩
    (fun _ _ _ _ => uploading_of_move) hrun
  refine ⟨hu.justified, fun generation req hbegan => ?_, fun r hreq hclean => ?_⟩
  · exact uploaded_isPrefix hu.justified fun req' hbegan' => began_unique hg.current hbegan' hbegan
  · obtain ⟨req, hs⟩ := hu.running r hreq hclean
    refine ⟨req, hs.began, hs.sent_le, ?_, hs.unopened⟩
    by_cases hopened : r.ctx.h3Request = true
    · exact (hs.opened hopened).2
    · rw [Bool.not_eq_true] at hopened
      obtain ⟨hsent, hnone⟩ := hs.unopened hopened
      rw [uploaded_eq_nil hnone, hsent, List.take_zero]

theorem upload_postRun : Uploads (traceOf postRun).1 (traceOf postRun).2 ∧
    uploaded 1 (traceOf postRun).2 = postRequest.body :=
  ⟨upload_of_run run_postRun, by decide +kernel⟩

end Drive

end Http3

end AsterNet
