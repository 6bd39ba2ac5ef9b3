import AsterNet.Engine.Http3.Drive
import AsterNet.Engine.Http3.Equiv.Callbacks

/-!
# What a step of the QUIC engine does

`Move` is the engine without its control points: a request is refused or started, XQUIC works on it
(`Work`), and it ends; between two requests nothing is open but XQUIC.  `move_of_act`: every act of the
engine, from a state of one of these shapes, is such a move.

What holds along every run follows from the moves alone (`invariant_of_run`).
-/

namespace AsterNet

namespace Http3

namespace Drive

open Transition

/-! ### Shapes -/

/-- A request runs. -/
def Control.runs : Control → Bool
  | .idle | .destroying | .gone => false
  | _ => true

/-- What is watched for a request. -/
def watching (r : Running) : ℕ → Option Readiness :=
  Function.update (fun _ => none) r.sockFd (some ⟨true, r.waitingWritable⟩)

/-- The request has the one socket that is open. -/
structure Tied (m : Machine) (r : Running) : Prop where
  generation : r.generation = m.requestGeneration
  openFds : m.openFds = [r.sockFd]
  watched : m.watched = watching r

/-- A request runs on an XQUIC engine. -/
structure Runs (m : Machine) (r : Running) (engine : ℕ) : Prop extends Tied m r where
  control : m.control.runs = true
  curReq : m.curReq = some r
  cleanup : r.cleanupStarted = false
  engine : m.engine = some engine

/-- A request is being cleaned up: XQUIC is being destroyed. -/
structure Cleans (m : Machine) (r : Running) : Prop extends Tied m r where
  control : m.control = .destroying
  curReq : m.curReq = some r
  cleanup : r.cleanupStarted = true
  engine : m.engine = none

/-- No request runs. -/
structure Rests (m : Machine) : Prop where
  control : m.control = .idle ∨ m.control = .gone ∧ m.engine = none
  curReq : m.curReq = none
  openFds : m.openFds = []
  watched : m.watched = fun _ => none

/-- The engine is in one of these shapes. -/
inductive Shape (m : Machine) : Prop
  | rests (h : Rests m)
  | runs (r : Running) (engine : ℕ) (h : Runs m r engine)
  | cleans (r : Running) (h : Cleans m r)

/-! ### Moves -/

/-- XQUIC waits for the socket, after what happened. -/
def waits (waiting : Bool) : Event → Bool
  | .blocked _ => true
  | .called _ _ .continueSend => false
  | .began .. => false
  | _ => waiting

/-- A call of XQUIC that the event loop makes for a request. -/
def Call.IsLoop (generation : ℕ) : Call → Prop
  | .continueSend | .packetProcess | .finishRecv => True
  | .mainLogic armedBy => armedBy = generation
  | _ => False

/-- An event of a request that hands nothing to XQUIC for sending. -/
def Quiet (r : Running) (engine : ℕ) : Event → Prop
  | .io fd => fd = r.sockFd
  | .blocked generation => generation = r.generation
  | .called engine' generation call => engine' = engine ∧ generation = r.generation ∧ call.IsLoop generation
  | .heard generation _ => generation = r.generation
  | _ => False

/-- What a context hears. -/
def heardIn (es : List Event) : List Http3.Event :=
  es.filterMap fun
    | .heard _ event => some event
    | _ => none

@[simp] theorem heardIn_nil : heardIn [] = [] := rfl

@[simp] theorem heardIn_append (es es' : List Event) : heardIn (es ++ es') = heardIn es ++ heardIn es' :=
  List.filterMap_append

/-- What a context has to send, and whether and how far it was sent. -/
def sending (ctx : RequestContext) : List Header × Bytes × Bool × ℕ :=
  (requestHeaders ctx, ctx.body, ctx.h3Request, ctx.requestBodySent)

/-- What may happen to a running request. -/
inductive Work (r : Running) (engine : ℕ) : Running → List Event → Prop
  /-- The loop goes on. -/
  | tested (hopen : (r.ctx.finished || r.ctx.failed) = false) : Work r engine r [.polling r.generation]
  | quiet {es : List Event} {waiting : Bool}
      (hes : ∀ e ∈ es, Quiet r engine e) (hwaiting : es.foldl waits r.waitingWritable = waiting)
      (hsending : sending ((heardIn es).foldl handle r.ctx) = sending r.ctx) :
      Work r engine { r with ctx := (heardIn es).foldl handle r.ctx, waitingWritable := waiting } es
  | handshake (outcome : HandshakeOutcome) :
      Work r engine { r with ctx := handshakeFinished r.ctx outcome }
        (.heard r.generation (.handshake outcome) :: handshakeEvents engine r.generation r.ctx outcome)
  | writable (results : List SendResult) :
      Work r engine { r with ctx := sendPendingBody r.ctx results }
        (.heard r.generation (.writable results) :: bodyEvents r.generation r.ctx results)

theorem Work.sockFd_eq {r r' : Running} {engine : ℕ} {es : List Event} (h : Work r engine r' es) :
    r'.sockFd = r.sockFd := by
  cases h <;> rfl

theorem Work.generation_eq {r r' : Running} {engine : ℕ} {es : List Event} (h : Work r engine r' es) :
    r'.generation = r.generation := by
  cases h <;> rfl

/-- How `request` comes to an XQUIC engine: it is made, or it is there. -/
inductive Inits (m m' : Machine) : List Event → Prop
  | kept (hengine : m'.engine = m.engine) : Inits m m' []
  | made {engine : ℕ} (hnone : m.engine = none) (hengine : m'.engine = some engine) :
      Inits m m' [.created engine]
  | failed {engine : ℕ} (hnone : m.engine = none) (hengine : m'.engine = none) :
      Inits m m' [.created engine, .destroyed engine]

/-- The engine, one act after the other. -/
inductive Move (m m' : Machine) : List Event → Prop
  | refused {made sockets : List Event} {result : Result} (h : Rests m) (h' : Rests m')
      (hgeneration : m'.requestGeneration = m.requestGeneration) (hmade : Inits m m' made)
      (hsockets : sockets = [] ∨ ∃ fd, sockets = [.opened fd, .closed fd]) :
      Move m m' (made ++ sockets ++ [.refused result])
  | started {made : List Event} {req : Request} {r : Running} {engine : ℕ} (h : Rests m)
      (hmade : Inits m m' made) (h' : Runs m' r engine)
      (hgeneration : m'.requestGeneration = m.requestGeneration + 1)
      (hctx : r.ctx = newContext req) (hwaiting : r.waitingWritable = false) :
      Move m m' (made ++ [.opened r.sockFd, .began r.generation req, .called engine r.generation .connect])
  | worked {r r' : Running} {engine : ℕ} {es : List Event} (h : Runs m r engine) (h' : Runs m' r' engine)
      (hgeneration : m'.requestGeneration = m.requestGeneration) (hwork : Work r engine r' es) :
      Move m m' es
  /-- `xqc_h3_connect` has failed. -/
  | unconnected {r : Running} {engine : ℕ} (h : Runs m r engine) (h' : Rests m')
      (hgeneration : m'.requestGeneration = m.requestGeneration) (hengine : m'.engine = m.engine) :
      Move m m' [.unconnected r.generation, .closed r.sockFd,
        .answered r.generation { errCode := .errConnect }]
  | ended {r : Running} {engine : ℕ} {timedOut : Bool} (h : Runs m r engine)
      (h' : Cleans m' { r with cleanupStarted := true })
      (hgeneration : m'.requestGeneration = m.requestGeneration)
      (htimedOut : timedOut = !(r.ctx.finished || r.ctx.failed)) :
      Move m m' [.called engine r.generation .getStats, .answered r.generation (judge timedOut r.ctx),
        .destroyed engine]
  | cleaned {r r' : Running} {es : List Event} (h : Cleans m r) (h' : Cleans m' r')
      (hgeneration : m'.requestGeneration = m.requestGeneration)
      (hsockFd : r'.sockFd = r.sockFd) (hwaiting : r'.waitingWritable = r.waitingWritable)
      (hes : ∀ e ∈ es, ∃ event, e = .heard r.generation event) : Move m m' es
  | released {r : Running} (h : Cleans m r) (h' : Rests m')
      (hgeneration : m'.requestGeneration = m.requestGeneration) (hengine : m'.engine = none) :
      Move m m' [.closed r.sockFd]
  | dropped (h : Rests m) (h' : Rests m') (hgeneration : m'.requestGeneration = m.requestGeneration)
      (hengine : m'.engine = none) : Move m m' (m.engine.toList.map .destroyed)

/-! ### What receiving leaves alone -/

section

variable {ctx : RequestContext}

theorem sending_completeResponseIfReady : sending (completeResponseIfReady ctx) = sending ctx := by
  unfold completeResponseIfReady
  split_ifs <;> rfl

theorem sending_finish : sending (finish ctx) = sending ctx :=
  sending_completeResponseIfReady

theorem sending_scanStatus (found : Bool) (headers : List Header) :
    sending (scanStatus ctx found headers).2 = sending ctx := by
  induction headers generalizing ctx found with
  | nil => rfl
  | cons header headers ih =>
    unfold scanStatus
    split_ifs
    · exact ih found
    · split
      · exact ih true
      · rfl

theorem sending_consumeHeaders (isInitial : Bool) (received : Http3.Received) :
    sending (consumeHeaders ctx isInitial received).2 = sending ctx := by
  -- reading a section changes nothing of what is sent
  cases received with
  | none => rfl
  | some received =>
    obtain ⟨headers, fin⟩ := received
    cases isInitial with
    | false =>
      cases fin with
      | false => rfl
      | true => exact sending_finish
    | true =>
      have hscan : sending (scanStatus ctx false headers).2 = sending ctx := sending_scanStatus false headers
      unfold consumeHeaders
      simp only [if_true]
      generalize scanStatus ctx false headers = scanned at hscan ⊢
      rcases scanned with ⟨_ | _ | _, ctx'⟩
      · exact hscan
      · exact hscan
      · cases fin with
        | false => exact hscan
        | true =>
          simp only [if_true]
          rw [sending_finish]
          exact hscan

theorem sending_recvBody (reads : List BodyRead) : sending (recvBody ctx reads).2.2 = sending ctx := by
  induction reads generalizing ctx with
  | nil => rfl
  | cons read reads ih =>
    cases read with
    | again => rfl
    | failed => rfl
    | data bytes fin =>
      unfold recvBody
      split_ifs
      · rfl
      · rfl
      · rfl
      · exact ih

theorem sending_readBody (reads : List BodyRead) : sending (readBody ctx reads).2 = sending ctx := by
  have hrecv : sending (recvBody ctx reads).2.2 = sending ctx := sending_recvBody reads
  unfold readBody
  generalize recvBody ctx reads = read at hrecv ⊢
  rcases read with ⟨_ | _, fin, ctx'⟩
  · exact hrecv
  · dsimp only at hrecv ⊢
    split_ifs
    · exact hrecv
    · exact sending_finish.trans hrecv
    · exact hrecv

theorem sending_thenRead {read : Bool × RequestContext}
    {next : RequestContext → Bool × RequestContext} (h : sending read.2 = sending ctx)
    (hnext : ∀ ctx', sending (next ctx').2 = sending ctx') : sending (thenRead read next).2 = sending ctx := by
  unfold thenRead
  split_ifs
  · exact h
  · exact (hnext _).trans h

theorem sending_readNotify (notify : ReadNotify) : sending (readNotify ctx notify) = sending ctx := by
  rw [readNotify_eq]
  refine sending_thenRead (sending_thenRead (sending_thenRead ?_ fun ctx' => ?_) fun ctx' => ?_)
    fun ctx' => ?_
  · cases notify.header with
    | none => rfl
    | some received => exact sending_consumeHeaders true received
  · cases notify.body with
    | none => rfl
    | some reads => exact sending_readBody reads
  · cases notify.trailer with
    | none => rfl
    | some received => exact sending_consumeHeaders false received
  · dsimp only
    split_ifs
    · exact sending_finish
    · rfl

theorem sending_closeNotify (streamErr : ℤ) : sending (closeNotify ctx streamErr) = sending ctx := by
  unfold closeNotify
  dsimp only
  split_ifs
  · rfl
  · exact sending_completeResponseIfReady

end

/-! ### Every act is a move -/

section

variable {m m' : Machine} {r : Running} {engine : ℕ} {es : List Event} {a : Act}

theorem Runs.active (h : Runs m r engine) : m.active = some r := by
  simp [Machine.active, h.curReq, h.cleanup]

theorem Cleans.active (h : Cleans m r) : m.active = none := by
  simp [Machine.active, h.curReq, h.cleanup]

theorem Rests.runs_eq_false (h : Rests m) : m.control.runs = false := by
  rcases h.control with hcontrol | ⟨hcontrol, -⟩ <;> simp [hcontrol, Control.runs]

/-- At a control point of a running request, one runs. -/
theorem Shape.exists_runs (h : Shape m) (hruns : m.control.runs = true) : ∃ r engine, Runs m r engine := by
  cases h with
  | rests h => simp [h.runs_eq_false] at hruns
  | runs r engine h => exact ⟨r, engine, h⟩
  | cleans r h => simp [h.control, Control.runs] at hruns

theorem Shape.rests_of_idle (h : Shape m) (hidle : m.control = .idle) : Rests m := by
  cases h with
  | rests h => exact h
  | runs r engine h => exact absurd h.control (by simp [hidle, Control.runs])
  | cleans r h => exact absurd h.control (by simp [hidle])

/-- The request goes on at another control point. -/
theorem Runs.goto (h : Runs m r engine) (control : Control) (hruns : control.runs = true) :
    Runs { m with control := control } r engine :=
  ⟨⟨h.generation, h.openFds, h.watched⟩, hruns, h.curReq, h.cleanup, h.engine⟩

/-- The context of a running request is changed. -/
theorem Runs.setCtx (h : Runs m r engine) (ctx : RequestContext) :
    Runs (m.setCtx r ctx) { r with ctx := ctx } engine :=
  ⟨⟨h.generation, h.openFds, h.watched⟩, h.control, rfl, h.cleanup, h.engine⟩

theorem Cleans.setCtx (h : Cleans m r) (ctx : RequestContext) :
    Cleans (m.setCtx r ctx) { r with ctx := ctx } :=
  ⟨⟨h.generation, h.openFds, h.watched⟩, h.control, rfl, h.cleanup, h.engine⟩

/-- What is watched follows `waiting_writable`. -/
theorem Runs.modFd (h : Runs m r engine) (waiting : Bool) :
    Runs ({ m with curReq := some { r with waitingWritable := waiting } }.modFd r.sockFd ⟨true, waiting⟩)
      { r with waitingWritable := waiting } engine := by
  refine ⟨⟨h.generation, h.openFds, ?_⟩, h.control, rfl, h.cleanup, h.engine⟩
  funext fd
  rcases eq_or_ne fd r.sockFd with rfl | hne
  · simp [Machine.modFd, watching, h.watched]
  · simp [Machine.modFd, watching, h.watched, hne]

theorem inits_initEngine (m : Machine) : Inits m m.initEngine.1 m.initEngine.2 := by
  unfold Machine.initEngine
  cases hengine : m.engine with
  | some engine => exact .kept rfl
  | none => exact .made hengine rfl

theorem engine_initEngine (m : Machine) : m.initEngine.1.engine = some (m.engine.getD m.nextEngine) := by
  unfold Machine.initEngine
  cases hengine : m.engine with
  | some engine => simp [hengine]
  | none => simp

theorem requestGeneration_initEngine (m : Machine) :
    m.initEngine.1.requestGeneration = m.requestGeneration := by
  unfold Machine.initEngine
  cases m.engine <;> rfl

theorem Rests.initEngine (h : Rests m) (hidle : m.control = .idle) : Rests m.initEngine.1 := by
  unfold Machine.initEngine
  cases m.engine with
  | some engine => exact h
  | none => exact ⟨.inl hidle, h.curReq, h.openFds, h.watched⟩

theorem Inits.of_engine {m₁ : Machine} (h : Inits m m₁ es) (heq : m'.engine = m₁.engine) :
    Inits m m' es := by
  cases h with
  | kept hengine => exact .kept (heq.trans hengine)
  | made hnone hengine => exact .made hnone (heq.trans hengine)
  | failed hnone hengine => exact .failed hnone (heq.trans hengine)

/-- A request that does not come to its socket. -/
theorem move_refused (h : Rests m) (hidle : m.control = .idle) (sockets : List Event) (result : Result)
    (hsockets : sockets = [] ∨ ∃ fd, sockets = [.opened fd, .closed fd]) :
    Move m m.initEngine.1 (m.initEngine.2 ++ sockets ++ [.refused result]) :=
  .refused h (h.initEngine hidle) (requestGeneration_initEngine m) (inits_initEngine m) hsockets

theorem move_begin {req : Request} {opening : Opening} (h : Rests m) (hidle : m.control = .idle)
    (hact : m.begin req opening = some (m', es)) : Move m m' es := by
  cases opening with
  | engineFailed =>
    simp only [Machine.begin] at hact
    split_ifs at hact
    obtain ⟨rfl, rfl⟩ := Prod.mk.inj (Option.some.inj hact)
    exact .refused h h rfl (.kept rfl) (.inl rfl)
  | contextFailed =>
    -- the engine is created, and destroyed again
    simp only [Machine.begin] at hact
    split_ifs at hact with hnone
    obtain ⟨rfl, rfl⟩ := Prod.mk.inj (Option.some.inj hact)
    have hmove : Move m { m with nextEngine := m.nextEngine + 1 }
        ([.created m.nextEngine, .destroyed m.nextEngine] ++ [] ++ [.refused .errInternal]) :=
      .refused h ⟨h.control, h.curReq, h.openFds, h.watched⟩ rfl (.failed hnone hnone) (.inl rfl)
    exact hmove
  | lookupFailed =>
    obtain ⟨rfl, rfl⟩ := Prod.mk.inj (Option.some.inj hact)
    simpa using move_refused h hidle [] .errDns (.inl rfl)
  | socketFailed =>
    obtain ⟨rfl, rfl⟩ := Prod.mk.inj (Option.some.inj hact)
    simpa using move_refused h hidle [] .errInternal (.inl rfl)
  -- a socket that was opened is closed again
  | setupFailed fd =>
    simp only [Machine.begin] at hact
    split_ifs at hact
    obtain ⟨rfl, rfl⟩ := Prod.mk.inj (Option.some.inj hact)
    simpa using move_refused h hidle _ .errInternal (.inr ⟨fd, rfl⟩)
  | connectFailed fd =>
    simp only [Machine.begin] at hact
    split_ifs at hact
    obtain ⟨rfl, rfl⟩ := Prod.mk.inj (Option.some.inj hact)
    simpa using move_refused h hidle _ .errConnect (.inr ⟨fd, rfl⟩)
  -- a request that starts has its socket, its context and an engine
  | ready fd =>
    simp only [Machine.begin] at hact
    split_ifs at hact
    obtain ⟨rfl, rfl⟩ := Prod.mk.inj (Option.some.inj hact)
    have hrests := h.initEngine hidle
    have hgeneration := requestGeneration_initEngine m
    set engine := m.engine.getD m.nextEngine
    have hruns : Runs (m.initEngine.1.start engine fd req).1
        { ctx := newContext req, sockFd := fd, generation := m.initEngine.1.requestGeneration + 1 }
        engine := by
      refine ⟨⟨rfl, ?_, ?_⟩, rfl, rfl, rfl, engine_initEngine m⟩
      · simp [Machine.start, hrests.openFds]
      · simp [Machine.start, hrests.watched, watching]
    have hmade : Inits m (m.initEngine.1.start engine fd req).1 m.initEngine.2 :=
      (inits_initEngine m).of_engine rfl
    refine .started h hmade hruns ?_ rfl rfl
    simp [Machine.start, hgeneration]

/-! ### The moves of a running request -/

/-- A move of a running request whose context hears some events. -/
theorem Runs.move_quiet (h : Runs m r engine) {waiting : Bool}
    (h' : Runs m' { r with ctx := (heardIn es).foldl handle r.ctx, waitingWritable := waiting } engine)
    (hgeneration : m'.requestGeneration = m.requestGeneration) (hes : ∀ e ∈ es, Quiet r engine e)
    (hwaiting : es.foldl waits r.waitingWritable = waiting)
    (hsending : sending ((heardIn es).foldl handle r.ctx) = sending r.ctx) : Move m m' es :=
  .worked h h' hgeneration (.quiet hes hwaiting hsending)

/-- One that leaves the request as it is. -/
theorem Runs.move_same (h : Runs m r engine) (h' : Runs m' r engine)
    (hgeneration : m'.requestGeneration = m.requestGeneration) (hes : ∀ e ∈ es, Quiet r engine e)
    (hheard : heardIn es = []) (hwaiting : es.foldl waits r.waitingWritable = r.waitingWritable) :
    Move m m' es := by
  refine h.move_quiet ?_ hgeneration hes hwaiting ?_
  · rw [hheard]
    exact h'
  · rw [hheard]
    rfl

/-- One in which nothing happens that is of interest. -/
theorem Runs.move_still (h : Runs m r engine) (h' : Runs m' r engine)
    (hgeneration : m'.requestGeneration = m.requestGeneration) : Move m m' [] :=
  h.move_same h' hgeneration (by simp) rfl rfl

/-- One in which the context hears one event. -/
theorem Runs.move_heard (h : Runs m r engine) (event : Http3.Event)
    (hsending : sending (handle r.ctx event) = sending r.ctx) :
    Move m (m.hear r event).1 (m.hear r event).2 :=
  h.move_quiet (h.setCtx _) rfl (by simp [Machine.hear, Quiet]) rfl hsending

/-- What a callback that looks at the context and at `engine_` finds. -/
theorem Runs.eq_of_found (h : Runs m r engine) {r' : Running} {engine' : ℕ} (hactive : m.active = some r')
    (hengine : m.engine = some engine') : r' = r ∧ engine' = engine := by
  rw [h.active] at hactive
  rw [h.engine] at hengine
  exact ⟨(Option.some.inj hactive).symm, (Option.some.inj hengine).symm⟩

theorem Runs.release (h : Runs m r engine) : Rests (m.release r).1 := by
  refine ⟨.inl rfl, rfl, ?_, ?_⟩
  · simp [Machine.release, h.openFds]
  · simp [Machine.release, h.watched, watching]

theorem Cleans.release (h : Cleans m r) : Rests (m.release r).1 := by
  refine ⟨.inl rfl, rfl, ?_, ?_⟩
  · simp [Machine.release, h.openFds]
  · simp [Machine.release, h.watched, watching]

theorem Runs.finish (h : Runs m r engine) {timedOut : Bool}
    (htimedOut : timedOut = !(r.ctx.finished || r.ctx.failed)) :
    Move m (m.finish r timedOut).1 (m.finish r timedOut).2 := by
  unfold Machine.finish
  split
  · case h_1 engine' hengine =>
    obtain rfl : engine' = engine := Option.some.inj (hengine.symm.trans h.engine)
    exact .ended h ⟨⟨h.generation, h.openFds, h.watched⟩, rfl, rfl, rfl, rfl⟩ rfl htimedOut
  · case h_2 hnone =>
    rw [h.engine] at hnone
    cases hnone

theorem move_test (h : Runs m r engine) (timeUp : Bool) : Move m (m.test r timeUp).1 (m.test r timeUp).2 := by
  unfold Machine.test
  by_cases hdone : (r.ctx.finished || r.ctx.failed) = true
  · rw [if_pos hdone]
    exact h.finish (by simp [hdone])
  · rw [if_neg hdone]
    rw [Bool.not_eq_true] at hdone
    cases timeUp with
    | true => exact h.finish (by simp [hdone])
    | false =>
      have hpolling : Runs { m with control := .polling } r engine := h.goto .polling rfl
      exact .worked h hpolling rfl (.tested hdone)

theorem move_ready (h : Runs m r engine) (events : Readiness) :
    Move m (m.ready events).1 (m.ready events).2 := by
  unfold Machine.ready
  split
  · case h_1 r' engine' hactive hengine =>
    obtain ⟨rfl, rfl⟩ := h.eq_of_found hactive hengine
    split_ifs
    · -- XQUIC is told that the socket takes datagrams again
      have hruns := (h.modFd false).goto (.continuing events.readable) rfl
      exact h.move_quiet hruns rfl (by simp [Quiet, Call.IsLoop]) rfl rfl
    · exact h.move_still (h.goto (.receiving false) rfl) rfl
    · exact h.move_still h rfl
  · exact h.move_still h rfl

theorem move_expired (h : Runs m r engine) (armedBy : ℕ) :
    Move m (m.expired armedBy).1 (m.expired armedBy).2 := by
  have h' : Runs { m with timer := none } r engine :=
    ⟨⟨h.generation, h.openFds, h.watched⟩, h.control, h.curReq, h.cleanup, h.engine⟩
  unfold Machine.expired
  dsimp only
  split
  · case h_1 r' engine' hactive hengine =>
    obtain ⟨rfl, rfl⟩ := h'.eq_of_found hactive hengine
    split_ifs with harmed
    · exact h.move_same (h'.goto .mainLogic rfl) rfl (by simp [Quiet, Call.IsLoop, harmed]) (by rfl) rfl
    · exact h.move_still h' rfl
  · exact h.move_still h' rfl

/-- The end of the loop around `recvfrom`, after what has happened in it. -/
theorem received_of_runs (h : Runs m r engine) (any : Bool) :
    Runs (m.received any).1 r engine ∧ (m.received any).1.requestGeneration = m.requestGeneration ∧
      ((m.received any).2 = [] ∨ (m.received any).2 = [.called engine r.generation .finishRecv]) := by
  unfold Machine.received
  split
  · case h_1 r' engine' hactive hengine =>
    obtain ⟨rfl, rfl⟩ := h.eq_of_found hactive hengine
    split_ifs
    · exact ⟨h.goto .finishing rfl, rfl, .inr rfl⟩
    · exact ⟨h.goto .polling rfl, rfl, .inl rfl⟩
  · exact ⟨h.goto .polling rfl, rfl, .inl rfl⟩

/-- The loop around `recvfrom` ends after the socket was read, and the context may have heard of a
failure. -/
theorem move_received (h : Runs m r engine) (heard : List Event)
    (hheard : heard = [] ∨ heard = [.heard r.generation .socketFailed]) (any : Bool) :
    let ctx := (heardIn heard).foldl handle r.ctx
    Move m ((m.setCtx r ctx).received any).1
      (.io r.sockFd :: heard ++ ((m.setCtx r ctx).received any).2) := by
  dsimp only
  obtain ⟨hruns, hgeneration, hes⟩ :=
    received_of_runs (h.setCtx ((heardIn heard).foldl handle r.ctx)) any
  generalize (m.setCtx r ((heardIn heard).foldl handle r.ctx)).received any = received at *
  obtain ⟨m', es⟩ := received
  dsimp only at *
  rcases hheard with rfl | rfl
  · rcases hes with rfl | rfl <;>
      exact h.move_quiet hruns hgeneration (by simp [Quiet, Call.IsLoop]) rfl rfl
  · rcases hes with rfl | rfl <;>
      exact h.move_quiet hruns hgeneration (by simp [Quiet, Call.IsLoop]) rfl rfl

theorem move_receive (h : Runs m r engine) (any : Bool) (received : Received) :
    Move m (m.receive r engine any received).1 (m.receive r engine any received).2 := by
  cases received with
  | packet =>
    exact h.move_same (h.goto .processing rfl) rfl (by simp [Machine.receive, Quiet, Call.IsLoop])
      (by rfl) rfl
  | nameless => exact move_received h [.heard r.generation .socketFailed] (.inr rfl) any
  | nothing => exact h.move_same h rfl (by simp [Machine.receive, Quiet]) (by rfl) rfl
  | wouldBlock =>
    have hsame : m.setCtx r r.ctx = m := by
      rw [Machine.setCtx, ← h.curReq]
    have hmove := move_received h [] (.inl rfl) any
    simp only [heardIn_nil, List.foldl_nil, hsame] at hmove
    exact hmove
  | failed => exact move_received h [.heard r.generation .socketFailed] (.inr rfl) any

theorem move_writeSocket (h : Runs m r engine) (sent : Sent) :
    Move m (m.writeSocket r sent).1 (m.writeSocket r sent).2 := by
  cases sent with
  | whole => exact h.move_same h rfl (by simp [Machine.writeSocket, Quiet]) (by rfl) rfl
  | failed => exact h.move_same h rfl (by simp [Machine.writeSocket, Quiet]) (by rfl) rfl
  | wouldBlock =>
    simp only [Machine.writeSocket]
    split_ifs with hwaiting
    · exact h.move_same h rfl (by simp [Quiet]) (by rfl) (by simp [waits, hwaiting])
    · exact h.move_quiet (h.modFd true) rfl (by simp [Quiet]) rfl rfl

/-- A callback while a request runs. -/
theorem Runs.move_callback (h : Runs m r engine) (callback : Callback) :
    Move m (m.callback callback).1 (m.callback callback).2 := by
  cases callback with
  | writeSocket sent =>
    simp only [Machine.callback, h.active, Option.elim_some]
    exact move_writeSocket h sent
  | setEventTimer =>
    -- the timer is armed by the request that runs
    simp only [Machine.callback, h.curReq, Option.elim_some]
    have htimer : Runs { m with timer := some r.generation } r engine :=
      ⟨⟨h.generation, h.openFds, h.watched⟩, h.control, h.curReq, h.cleanup, h.engine⟩
    rw [h.curReq] at htimer
    exact h.move_still htimer rfl
  | handshakeFinished outcome =>
    simp only [Machine.callback]
    -- without a request or an engine the callback does nothing
    split
    · case h_1 r' engine' hactive hengine =>
      obtain ⟨rfl, rfl⟩ := h.eq_of_found hactive hengine
      exact .worked h (h.setCtx _) rfl (.handshake outcome)
    · exact h.move_still h rfl
  | writeNotify results =>
    simp only [Machine.callback]
    split
    · case h_1 r' engine' hactive hengine =>
      obtain ⟨rfl, rfl⟩ := h.eq_of_found hactive hengine
      exact .worked h (h.setCtx _) rfl (.writable results)
    · exact h.move_still h rfl
  | readNotify notify =>
    simp only [Machine.callback, h.active, Option.elim_some]
    exact h.move_heard (.readable notify) (sending_readNotify notify)
  | certRejected =>
    simp only [Machine.callback, h.curReq, Option.elim_some]
    exact h.move_heard .certRejected rfl
  | connClose =>
    simp only [Machine.callback, h.active, Option.elim_some]
    refine h.move_heard .connClose ?_
    simp only [handle]
    split_ifs <;> rfl
  | closing err =>
    simp only [Machine.callback, h.active, Option.elim_some]
    refine h.move_heard (.closing err) ?_
    simp only [handle]
    split_ifs <;> rfl
  | streamClose streamErr =>
    simp only [Machine.callback, h.active, Option.elim_some]
    exact h.move_heard (.streamClose streamErr) (sending_closeNotify streamErr)

/-- A callback while XQUIC is being destroyed: the context may still hear of a certificate, and a timer be
set. -/
theorem Cleans.move_callback (h : Cleans m r) (callback : Callback) :
    Move m (m.callback callback).1 (m.callback callback).2 := by
  have hsame : Move m m [] := .cleaned h h rfl rfl rfl (by simp)
  -- the two callbacks that do not ask for the active request
  cases callback with
  | setEventTimer =>
    simp only [Machine.callback, h.curReq, Option.elim_some]
    have htimer : Cleans { m with timer := some r.generation } r :=
      ⟨⟨h.generation, h.openFds, h.watched⟩, h.control, h.curReq, h.cleanup, h.engine⟩
    rw [h.curReq] at htimer
    exact .cleaned h htimer rfl rfl rfl (by simp)
  | certRejected =>
    simp only [Machine.callback, h.curReq, Option.elim_some]
    exact .cleaned h (h.setCtx _) rfl rfl rfl (by simp [Machine.hear])
  -- for the others there is no request any more
  | handshakeFinished outcome =>
    simp only [Machine.callback, h.active]
    exact hsame
  | writeNotify results =>
    simp only [Machine.callback, h.active]
    exact hsame
  | writeSocket sent =>
    simp only [Machine.callback, h.active, Option.elim_none]
    exact hsame
  | readNotify notify =>
    simp only [Machine.callback, h.active, Option.elim_none]
    exact hsame
  | connClose =>
    simp only [Machine.callback, h.active, Option.elim_none]
    exact hsame
  | closing err =>
    simp only [Machine.callback, h.active, Option.elim_none]
    exact hsame
  | streamClose streamErr =>
    simp only [Machine.callback, h.active, Option.elim_none]
    exact hsame

theorem move_returned (h : Runs m r engine) {ok : Bool}
    (hact : m.returned r ok m.control = some (m', es)) : Move m m' es := by
  have hruns := h.control
  unfold Machine.returned at hact
  split at hact
  · case h_1 readable hcontrol =>
    cases ok with
    | false =>
      rw [if_neg Bool.false_ne_true] at hact
      obtain ⟨rfl, rfl⟩ := Prod.mk.inj (Option.some.inj hact)
      exact h.move_quiet ((h.setCtx _).goto .polling rfl) rfl (by simp [Machine.fail, Machine.hear, Quiet])
        rfl rfl
    | true =>
      rw [if_pos rfl] at hact
      obtain ⟨rfl, rfl⟩ := Prod.mk.inj (Option.some.inj hact)
      exact h.move_still (h.goto _ (by split_ifs <;> rfl)) rfl
  · obtain ⟨rfl, rfl⟩ := Prod.mk.inj (Option.some.inj hact)
    exact h.move_still (h.goto (.receiving true) rfl) rfl
  · obtain ⟨rfl, rfl⟩ := Prod.mk.inj (Option.some.inj hact)
    exact h.move_still (h.goto .polling rfl) rfl
  · obtain ⟨rfl, rfl⟩ := Prod.mk.inj (Option.some.inj hact)
    exact h.move_still (h.goto .polling rfl) rfl
  · case h_5 hcontrol => simp [hcontrol, Control.runs] at hruns
  · cases hact

/-- **Every act is a move.** -/
theorem move_of_act (h : Shape m) (hact : m.act a = some (m', es)) : Move m m' es := by
  -- one case for each act; its guard says where the control is
  cases a with
  | begin req opening =>
    simp only [Machine.act] at hact
    split_ifs at hact with hidle
    exact move_begin (h.rests_of_idle hidle) hidle hact
  | connected ok =>
    simp only [Machine.act] at hact
    split at hact
    · case h_1 r hcontrol hreq =>
      obtain ⟨r', engine, hruns⟩ := h.exists_runs (by simp [hcontrol, Control.runs])
      obtain rfl : r' = r := Option.some.inj (hruns.curReq.symm.trans hreq)
      -- `xqc_h3_connect` went well, or the request ends without a connection
      split_ifs at hact
      · obtain ⟨rfl, rfl⟩ := Prod.mk.inj (Option.some.inj hact)
        exact hruns.move_still (hruns.goto .looping rfl) rfl
      · obtain ⟨rfl, rfl⟩ := Prod.mk.inj (Option.some.inj hact)
        exact .unconnected hruns hruns.release rfl rfl
    · cases hact
  | test timeUp =>
    simp only [Machine.act] at hact
    split at hact
    · case h_1 r hcontrol hreq =>
      obtain ⟨r', engine, hruns⟩ := h.exists_runs (by simp [hcontrol, Control.runs])
      obtain rfl : r' = r := Option.some.inj (hruns.curReq.symm.trans hreq)
      obtain ⟨rfl, rfl⟩ := Prod.mk.inj (Option.some.inj hact)
      exact move_test hruns timeUp
    · cases hact
  | ready fd events =>
    simp only [Machine.act] at hact
    split_ifs at hact with hpolling
    obtain ⟨r, engine, hruns⟩ := h.exists_runs (by simp [hpolling.1, Control.runs])
    obtain ⟨rfl, rfl⟩ := Prod.mk.inj (Option.some.inj hact)
    exact move_ready hruns events
  | expired =>
    simp only [Machine.act] at hact
    split at hact
    · case h_1 armedBy hcontrol htimer =>
      obtain ⟨r, engine, hruns⟩ := h.exists_runs (by simp [hcontrol, Control.runs])
      obtain ⟨rfl, rfl⟩ := Prod.mk.inj (Option.some.inj hact)
      exact move_expired hruns armedBy
    · cases hact
  | polled =>
    simp only [Machine.act] at hact
    split_ifs at hact with hpolling
    obtain ⟨r, engine, hruns⟩ := h.exists_runs (by simp [hpolling, Control.runs])
    obtain ⟨rfl, rfl⟩ := Prod.mk.inj (Option.some.inj hact)
    exact hruns.move_still (hruns.goto .looping rfl) rfl
  | receive received =>
    simp only [Machine.act] at hact
    split at hact
    -- the machine reads as long as the request and its engine are there
    · case h_1 any r engine hcontrol hreq hengine =>
      obtain ⟨r', engine', hruns⟩ := h.exists_runs (by simp [hcontrol, Control.runs])
      obtain rfl : r' = r := Option.some.inj (hruns.curReq.symm.trans hreq)
      obtain rfl : engine' = engine := Option.some.inj (hruns.engine.symm.trans hengine)
      obtain ⟨rfl, rfl⟩ := Prod.mk.inj (Option.some.inj hact)
      exact move_receive hruns any received
    · cases hact
  | callback callback =>
    simp only [Machine.act] at hact
    split_ifs at hact with hxquic
    obtain ⟨rfl, rfl⟩ := Prod.mk.inj (Option.some.inj hact)
    -- XQUIC may call back whenever the control is inside it
    cases h with
    | rests h => rcases h.control with hcontrol | ⟨hcontrol, -⟩ <;> simp [hcontrol, Control.inXquic] at hxquic
    | runs r engine h => exact h.move_callback callback
    | cleans r h => exact h.move_callback callback
  | returned ok =>
    simp only [Machine.act, Option.bind_eq_some_iff] at hact
    obtain ⟨r, hreq, hact⟩ := hact
    -- the call of XQUIC returns to a request that runs, or to one that is cleaned up
    cases h with
    | rests h => simp [h.curReq] at hreq
    | runs r' engine h =>
      obtain rfl : r' = r := Option.some.inj (h.curReq.symm.trans hreq)
      exact move_returned h hact
    | cleans r' h =>
      obtain rfl : r' = r := Option.some.inj (h.curReq.symm.trans hreq)
      rw [h.control] at hact
      obtain ⟨rfl, rfl⟩ := Prod.mk.inj (Option.some.inj hact)
      exact .released h h.release rfl h.engine
  | drop =>
    simp only [Machine.act] at hact
    split_ifs at hact with hidle
    have hrests := h.rests_of_idle hidle
    obtain ⟨rfl, rfl⟩ := Prod.mk.inj (Option.some.inj hact)
    exact .dropped hrests ⟨.inr ⟨rfl, rfl⟩, hrests.curReq, hrests.openFds, hrests.watched⟩ rfl rfl

/-- And it leads to one of the shapes again. -/
theorem Move.shape (h : Move m m' es) : Shape m' := by
  cases h with
  | refused _ h' => exact .rests h'
  | started _ _ h' => exact .runs _ _ h'
  | worked _ h' => exact .runs _ _ h'
  | unconnected _ h' => exact .rests h'
  | ended _ h' => exact .cleans _ h'
  | cleaned _ h' => exact .cleans _ h'
  | released _ h' => exact .rests h'
  | dropped _ h' => exact .rests h'

theorem shape_init : Shape {} :=
  .rests ⟨.inl rfl, rfl, rfl, rfl⟩

theorem Steps.exists_act {h h' : List Event} (hs : Steps (m, h) a (m', h')) :
    ∃ es, m.act a = some (m', es) ∧ h' = h ++ es := by
  obtain ⟨⟨m₁, es⟩, hact, heq⟩ := Option.map_eq_some_iff.mp hs
  obtain ⟨rfl, rfl⟩ := Prod.mk.inj heq
  exact ⟨es, hact, rfl⟩

end

/-- **The rule for runs**: what the moves keep holds of every state an engine reaches, with what happened
until then. -/
theorem invariant_of_run {I : Machine → List Event → Prop} (hinit : I {} [])
    (hmove : ∀ m m' h es, I m h → Move m m' es → I m' (h ++ es)) {acts : List Act} {m : Machine}
    {h : List Event} (hrun : Run Steps ({}, []) acts (m, h)) : Shape m ∧ I m h := by
  have hboth := hrun.invariant (I := fun s => Shape s.1 ∧ I s.1 s.2) ?_ ⟨shape_init, hinit⟩
  · exact hboth
  · rintro ⟨m, h⟩ a ⟨m', h'⟩ ⟨hshape, hI⟩ hs
    obtain ⟨es, hact, rfl⟩ := hs.exists_act
    have hm := move_of_act hshape hact
    exact ⟨hm.shape, hmove m m' h es hI hm⟩

end Drive

end Http3

end AsterNet
