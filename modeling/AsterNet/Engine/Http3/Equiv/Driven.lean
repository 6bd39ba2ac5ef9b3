import AsterNet.Engine.Http3.Equiv.Drive
import AsterNet.Lib.Lifecycle

/-!
# What the QUIC engine holds, and for whom it acts

* `holds_of_run`: in every run, a socket or an XQUIC engine is used only while it is open and released
  once; between two requests no socket is open and nothing is watched, and `~QuicEngine` leaves nothing.
* `current_of_run`: XQUIC is only called, and answers are only given, for the request that runs; a timer
  that an earlier request has set drives no later one.
* `watched_of_run`: the socket is watched for writing exactly while XQUIC waits for it.
* `answered_of_run`: an answer is what `Http3.request` gives for the request when each of its polls brings
  what the context has heard in that round of the loop.
-/

namespace AsterNet

namespace Http3

namespace Drive

open ByteString Lifecycle Transition

variable {m m' : Machine} {h : List Event} {r r' : Running} {engine : ℕ} {es : List Event}
  {acts : List Act}

/-! ### Sockets and engines -/

/-- What an engine holds outside. -/
inductive Resource
  | socket (fd : ℕ)
  | engine (id : ℕ)
  deriving DecidableEq, Repr

/-- What an event does with it. -/
def Event.steps : Event → List (Step Resource)
  | .opened fd => [.acquire (.socket fd)]
  | .io fd => [.use (.socket fd)]
  | .closed fd => [.release (.socket fd)]
  | .created engine => [.acquire (.engine engine)]
  | .called engine _ _ => [.use (.engine engine)]
  | .destroyed engine => [.release (.engine engine)]
  | _ => []

/-- What is open. -/
def resources (m : Machine) : List Resource :=
  m.openFds.map .socket ++ m.engine.toList.map .engine

theorem Runs.resources (h : Runs m r engine) : resources m = [.socket r.sockFd, .engine engine] := by
  simp [Drive.resources, h.openFds, h.engine]

theorem Cleans.resources (h : Cleans m r) : resources m = [.socket r.sockFd] := by
  simp [Drive.resources, h.openFds, h.engine]

theorem Rests.resources (h : Rests m) : resources m = m.engine.toList.map .engine := by
  simp [Drive.resources, h.openFds]

theorem steps_bodyEvents (generation : ℕ) (ctx : RequestContext) (results : List SendResult) :
    (bodyEvents generation ctx results).flatMap Event.steps = [] := by
  simp [bodyEvents, List.flatMap_map, Event.steps]

/-- A running request uses its socket and its engine. -/
theorem Work.uses (h : Work r engine r' es) :
    ∀ step ∈ es.flatMap Event.steps, ∃ x ∈ [Resource.socket r.sockFd, .engine engine], step = .use x := by
  cases h with
  | tested => simp [Event.steps]
  | quiet hes =>
    intro step hstep
    obtain ⟨e, he, hstep⟩ := List.mem_flatMap.mp hstep
    have hquiet := hes e he
    cases e <;> simp_all [Event.steps, Quiet]
  | handshake outcome =>
    unfold handshakeEvents
    split_ifs
    · simp [Event.steps]
    · cases outcome with
      | createFailed => simp [Event.steps]
      | sendHeadersFailed => simp [Event.steps]
      | sent results => simp [Event.steps, List.flatMap_cons, steps_bodyEvents]
  | writable results => simp [Event.steps, List.flatMap_cons, steps_bodyEvents]

/-- An engine that is made, and one that could not be. -/
theorem Inits.tracks (h : Inits m m' es) :
    Tracks (m.engine.toList.map Resource.engine) (es.flatMap Event.steps)
      (m'.engine.toList.map Resource.engine) := by
  cases h with
  | kept hengine => simp [hengine]
  | made hnone hengine => simp [hnone, hengine, Event.steps]
  | failed hnone hengine => simp [hnone, hengine, Event.steps]

/-- Every move keeps what is open in order. -/
theorem Move.tracks (h : Move m m' es) :
    Tracks (resources m) (es.flatMap Event.steps) (resources m') := by
  cases h with
  -- whatever a refused request opened is closed again
  | @refused made sockets result h h' _ hmade hsockets =>
    have hclosed : Tracks (m'.engine.toList.map Resource.engine)
        (List.flatMap Event.steps (sockets ++ [.refused result])) (m'.engine.toList.map Resource.engine) := by
      obtain rfl | ⟨fd, rfl⟩ := hsockets <;> simp [Event.steps]
    rw [h.resources, h'.resources, List.append_assoc, List.flatMap_append]
    exact hmade.tracks.append hclosed
  | @started made req r engine h hmade h' =>
    -- the socket and the engine stay open while the request runs
    have hopened : Tracks (m'.engine.toList.map Resource.engine)
        (List.flatMap Event.steps [.opened r.sockFd, .began r.generation req,
          .called engine r.generation .connect]) [.socket r.sockFd, .engine engine] := by
      simp [Event.steps, h'.engine]
    rw [h.resources, h'.resources, List.flatMap_append]
    exact hmade.tracks.append hopened
  | worked h h' _ hwork =>
    rw [h.resources, h'.resources, hwork.sockFd_eq]
    exact tracks_uses hwork.uses
  | unconnected h h' _ hengine =>
    rw [h.resources, h'.resources, hengine, h.engine]
    simp [Event.steps]
  | ended h h' =>
    -- the engine goes with the request, the socket later
    rw [h.resources, h'.resources]
    simp [Event.steps]
  | cleaned h h' _ hsockFd _ hes =>
    have hsteps : es.flatMap Event.steps = [] := by
      refine List.flatMap_eq_nil_iff.mpr fun e he => ?_
      obtain ⟨event, rfl⟩ := hes e he
      rfl
    rw [h.resources, h'.resources, hsockFd, hsteps]
    simp
  | released h h' _ hengine =>
    rw [h.resources, h'.resources, hengine]
    simp [Event.steps]
  | dropped h h' _ hengine =>
    rw [h.resources, h'.resources, hengine]
    cases m.engine <;> simp [Event.steps]

/-- What the sockets and XQUIC engines have gone through. -/
structure Holds (m : Machine) (h : List Event) : Prop where
  /-- They are used while they are open, and released once. -/
  tracks : Tracks [] (h.flatMap Event.steps) (resources m)
  /-- Between two requests no socket is open, and nothing is watched. -/
  resting : m.curReq = none → m.openFds = [] ∧ ∀ fd, m.watched fd = none
  gone : m.control = .gone → resources m = []

/-- **Sockets and XQUIC engines** are released once, and not used afterwards. -/
theorem holds_of_run (hrun : Run Steps ({}, []) acts (m, h)) : Holds m h := by
  obtain ⟨hshape, htracks⟩ := invariant_of_run
    (I := fun m h => Tracks [] (h.flatMap Event.steps) (resources m)) (by simp [resources])
    (fun m m' h es hI hm => by
      rw [List.flatMap_append]
      exact hI.append hm.tracks) hrun
  refine ⟨htracks, fun hnone => ?_, fun hgone => ?_⟩
  · cases hshape with
    | rests h => exact ⟨h.openFds, fun fd => by rw [h.watched]⟩
    | runs r engine h => simp [h.curReq] at hnone
    | cleans r h => simp [h.curReq] at hnone
  · cases hshape with
    | rests h =>
      rcases h.control with hidle | ⟨-, hengine⟩
      · simp [hidle] at hgone
      · rw [h.resources, hengine]
        rfl
    | runs r engine h => exact absurd h.control (by simp [hgone, Control.runs])
    | cleans r h => exact absurd h.control (by simp [hgone])

/-- A request with a body: the socket takes no datagram at first, XQUIC takes two of three bytes, waits, and
takes the last one. -/
def postRequest : Request := { host := ascii "h", method := ascii "POST", body := ascii "abc" }

def blockedRun : List Act :=
  [.begin postRequest (.ready 3), .callback (.writeSocket .wouldBlock)]

def postRun : List Act :=
  blockedRun ++
    [.connected true, .test false, .ready 3 ⟨true, true⟩, .returned true, .receive .packet,
      .callback (.handshakeFinished (.sent [.sent 2, .again])), .callback .setEventTimer, .returned true,
      .receive .wouldBlock, .returned true, .expired, .callback (.writeNotify [.sent 1]),
      .callback (.readNotify { header := some (some ([⟨ascii ":status", ascii "200"⟩], true)) }),
      .returned true, .polled, .test false, .returned true, .drop]

/-- Where it comes to. -/
def traceOf (acts : List Act) : Trace := (acts.foldlM next ({}, [])).getD ({}, [])

theorem run_blockedRun : Run Steps ({}, []) blockedRun (traceOf blockedRun) :=
  .of_isSome_foldlM (by decide +kernel)

theorem run_postRun : Run Steps ({}, []) postRun (traceOf postRun) :=
  .of_isSome_foldlM (by decide +kernel)

theorem holds_postRun : Holds (traceOf postRun).1 (traceOf postRun).2 ∧
    resources (traceOf postRun).1 = [] := by
  have hholds := holds_of_run run_postRun
  exact ⟨hholds, hholds.gone (by decide +kernel)⟩

/-! ### The request that runs -/

/-- The generation of the request that began last. -/
def generationOf (h : List Event) : ℕ :=
  h.foldl (fun generation e => match e with
    | .began generation' _ => generation'
    | _ => generation) 0

/-- An event that the current generation may cause. -/
def Current (generation : ℕ) : Event → Prop
  | .began generation' _ => generation' = generation + 1
  | .called _ generation' call =>
    generation' = generation ∧ ∀ armedBy, call = .mainLogic armedBy → armedBy = generation
  | .answered generation' _ => generation' = generation
  | .headers generation' _ _ => generation' = generation
  | .body generation' _ _ => generation' = generation
  | .blocked generation' => generation' = generation
  | .unconnected generation' => generation' = generation
  | .polling generation' => generation' = generation
  | .heard generation' _ => generation' = generation
  | _ => True

/-- An event that begins no request. -/
def Continues : Event → Prop
  | .began _ _ => False
  | _ => True

theorem generationOf_append (hes : ∀ e ∈ es, Continues e) : generationOf (h ++ es) = generationOf h := by
  induction es using List.reverseRecOn with
  | nil => rw [List.append_nil]
  | append_singleton es e ih =>
    have hlast := hes e (by simp)
    rw [← List.append_assoc, generationOf, List.foldl_append]
    have hbefore := ih fun e he => hes e (List.mem_append_left _ he)
    cases e <;> first | exact hlast.elim | exact hbefore

/-- Events of the current generation. -/
theorem justified_append (hj : Justified (fun before e => Current (generationOf before) e) h)
    (hes : ∀ e ∈ es, Continues e ∧ Current (generationOf h) e) :
    Justified (fun before e => Current (generationOf before) e) (h ++ es) := by
  induction es using List.reverseRecOn with
  | nil => simpa using hj
  | append_singleton es e ih =>
    have hbefore := fun e he => hes e (List.mem_append_left _ he)
    rw [← List.append_assoc]
    refine justified_append_singleton_iff.mpr ⟨ih hbefore, ?_⟩
    rw [generationOf_append fun e he => (hbefore e he).1]
    exact (hes e (by simp)).2

theorem current_bodyEvents (generation : ℕ) (ctx : RequestContext) (results : List SendResult) :
    ∀ e ∈ bodyEvents generation ctx results, Continues e ∧ Current generation e := by
  intro e he
  obtain ⟨call, -, rfl⟩ := List.mem_map.mp he
  exact ⟨trivial, rfl⟩

theorem Work.current (h : Work r engine r' es) : ∀ e ∈ es, Continues e ∧ Current r.generation e := by
  cases h with
  | tested => simp [Continues, Current]
  | quiet hes =>
    intro e he
    have hquiet := hes e he
    cases e with
    | called engine generation call =>
      obtain ⟨-, rfl, hloop⟩ := hquiet
      refine ⟨trivial, rfl, ?_⟩
      rintro armedBy rfl
      exact hloop
    | io fd => exact ⟨trivial, trivial⟩
    | blocked generation => exact ⟨trivial, hquiet⟩
    | heard generation event => exact ⟨trivial, hquiet⟩
    | unconnected generation => exact hquiet.elim
    | polling generation => exact hquiet.elim
    | refused result => exact hquiet.elim
    | began generation req => exact hquiet.elim
    | answered generation reply => exact hquiet.elim
    | opened fd => exact hquiet.elim
    | closed fd => exact hquiet.elim
    | created engine => exact hquiet.elim
    | destroyed engine => exact hquiet.elim
    | headers generation headers fin => exact hquiet.elim
    | body generation offered result => exact hquiet.elim
  | handshake outcome =>
    unfold handshakeEvents
    -- a stream that is open already sends nothing
    split_ifs
    · simp [Continues, Current]
    · cases outcome with
      | createFailed => simp [Continues, Current]
      | sendHeadersFailed => simp [Continues, Current]
      | sent results =>
        simp only [List.mem_cons, forall_eq_or_imp]
        exact ⟨⟨trivial, rfl⟩, ⟨trivial, rfl, by simp⟩, ⟨trivial, rfl⟩, current_bodyEvents _ _ _⟩
  | writable results => exact List.forall_mem_cons.mpr ⟨⟨trivial, rfl⟩, current_bodyEvents _ _ _⟩

theorem Inits.current (h : Inits m m' es) (generation : ℕ) :
    ∀ e ∈ es, Continues e ∧ Current generation e := by
  cases h <;> simp [Continues, Current]

/-- What happens is about the request that began last, which is that of the counter. -/
structure Generations (m : Machine) (h : List Event) : Prop where
  current : Justified (fun before e => Current (generationOf before) e) h
  counter : generationOf h = m.requestGeneration

theorem generations_of_move (hg : Generations m h) (hm : Move m m' es) : Generations m' (h ++ es) := by
  obtain ⟨hj, hgeneration⟩ := hg
  -- what happens in one generation
  have hwithin : (∀ e ∈ es, Continues e ∧ Current m.requestGeneration e) →
      m'.requestGeneration = m.requestGeneration → Generations m' (h ++ es) := by
    intro hes hkept
    rw [← hgeneration] at hes
    exact ⟨justified_append hj hes, by rw [generationOf_append fun e he => (hes e he).1, hgeneration, hkept]⟩
  cases hm with
  | refused _ _ hkept hmade hsockets =>
    refine hwithin ?_ hkept
    intro e he
    rcases List.mem_append.mp he with he | he
    · rcases List.mem_append.mp he with he | he
      · exact hmade.current _ e he
      · obtain rfl | ⟨fd, rfl⟩ := hsockets
        · simp at he
        · simp only [List.mem_cons, List.not_mem_nil, or_false] at he
          rcases he with rfl | rfl <;> exact ⟨trivial, trivial⟩
    · obtain rfl := List.mem_singleton.mp he
      exact ⟨trivial, trivial⟩
  | @started made req r engine _ hmade h' hnext =>
    have hr : r.generation = m.requestGeneration + 1 := h'.generation.trans hnext
    -- what is made before the request begins belongs to the one before
    have hopen : ∀ e ∈ made ++ [.opened r.sockFd], Continues e ∧ Current (generationOf h) e := by
      intro e he
      rcases List.mem_append.mp he with he | he
      · exact hmade.current _ e he
      · obtain rfl := List.mem_singleton.mp he
        exact ⟨trivial, trivial⟩
    have hgen := generationOf_append (h := h) fun e he => (hopen e he).1
    have hbegan : generationOf (h ++ (made ++ [.opened r.sockFd]) ++ [.began r.generation req]) =
        r.generation := by
      simp [generationOf]
    have heq : h ++ (made ++ [.opened r.sockFd, .began r.generation req,
        .called engine r.generation .connect]) =
        h ++ (made ++ [.opened r.sockFd]) ++ [.began r.generation req] ++
          [.called engine r.generation .connect] := by simp
    rw [heq]
    constructor
    · refine justified_append_singleton_iff.mpr ⟨justified_append_singleton_iff.mpr
        ⟨justified_append hj hopen, ?_⟩, ?_⟩
      · show r.generation = _ + 1
        rw [hgen, hgeneration, hr]
      · exact ⟨hbegan.symm, by simp⟩
    · rw [generationOf_append (by simp [Continues]), hbegan]
      exact h'.generation
  | worked h h' hkept hwork =>
    refine hwithin ?_ hkept
    rw [← h.generation]
    exact hwork.current
  | unconnected h h' hkept =>
    refine hwithin ?_ hkept
    simp [Continues, Current, h.generation]
  | ended h h' hkept =>
    refine hwithin ?_ hkept
    simp [Continues, Current, h.generation]
  | cleaned h h' hkept _ _ hes =>
    -- the callbacks of a cleaned up request are about that request
    refine hwithin (fun e he => ?_) hkept
    obtain ⟨event, rfl⟩ := hes e he
    exact ⟨trivial, h.generation⟩
  | released _ _ hkept => exact hwithin (by simp [Continues, Current]) hkept
  | dropped _ _ hkept =>
    refine hwithin ?_ hkept
    intro e he
    obtain ⟨engine, -, rfl⟩ := List.mem_map.mp he
    exact ⟨trivial, trivial⟩

/-- The rule for runs, with what is known of the generations. -/
theorem invariant_of_run_current {I : Machine → List Event → Prop} (hinit : I {} [])
    (hmove : ∀ m m' h es, Generations m h → I m h → Move m m' es → I m' (h ++ es)) {acts : List Act}
    {m : Machine} {h : List Event} (hrun : Run Steps ({}, []) acts (m, h)) : Generations m h ∧ I m h := by
  refine (invariant_of_run (I := fun m h => Generations m h ∧ I m h)
    ⟨⟨justified_nil, rfl⟩, hinit⟩ ?_ hrun).2
  rintro m m' h es ⟨hg, hI⟩ hm
  exact ⟨generations_of_move hg hm, hmove m m' h es hg hI hm⟩

/-- **XQUIC is called for the request that runs**: every call, every answer and everything that is sent
belongs to the request that began last, and only the timer that it has set drives XQUIC. -/
theorem current_of_run (hrun : Run Steps ({}, []) acts (m, h)) :
    Justified (fun before e => Current (generationOf before) e) h :=
  (invariant_of_run (I := Generations) ⟨justified_nil, rfl⟩ (fun _ _ _ _ => generations_of_move) hrun).2.current

theorem current_postRun :
    Justified (fun before e => Current (generationOf before) e) (traceOf postRun).2 ∧
      .called 0 1 (.mainLogic 1) ∈ (traceOf postRun).2 :=
  ⟨current_of_run run_postRun, by decide +kernel⟩

/-- The request an event is about. -/
def Event.generation : Event → Option ℕ
  | .began generation _ => some generation
  | .unconnected generation => some generation
  | .polling generation => some generation
  | .heard generation _ => some generation
  | .answered generation _ => some generation
  | .blocked generation => some generation
  | .called _ generation _ => some generation
  | .headers generation _ _ => some generation
  | .body generation _ _ => some generation
  | _ => none

/-- Nothing is about a request later than the one that began last. -/
theorem le_generationOf (hj : Justified (fun before e => Current (generationOf before) e) h)
    {e : Event} (he : e ∈ h) {generation : ℕ} (hgeneration : e.generation = some generation) :
    generation ≤ generationOf h := by
  -- the induction is on the history, which ends with the last event
  induction h using List.reverseRecOn with
  | nil => cases he
  | append_singleton h last ih =>
    obtain ⟨hj, hcurrent⟩ := justified_append_singleton_iff.mp hj
    -- the generation only grows
    have hgrows : generationOf h ≤ generationOf (h ++ [last]) := by
      cases last with
      | began generation' req' =>
        have hnext : generationOf (h ++ [.began generation' req']) = generation' := by simp [generationOf]
        have hcurrent' : generation' = generationOf h + 1 := hcurrent
        omega
      | _ => exact (generationOf_append (by simp [Continues])).ge
    rcases List.mem_append.mp he with he | he
    · exact (ih hj he).trans hgrows
    · obtain rfl := List.mem_singleton.mp he
      cases e with
      | began generation' req' =>
        obtain rfl := Option.some.inj hgeneration
        simp [generationOf]
      | called engine generation' call =>
        obtain rfl := Option.some.inj hgeneration
        exact hcurrent.1.le.trans hgrows
      | _ =>
        cases hgeneration <;> exact (show _ = _ from hcurrent).le.trans hgrows

/-- So nothing that has happened is about the next request. -/
theorem Generations.ne_of_lt (hg : Generations m h) {generation : ℕ}
    (hlt : m.requestGeneration < generation) : ∀ e ∈ h, e.generation ≠ some generation := by
  intro e he heq
  have hle := le_generationOf hg.current he heq
  rw [hg.counter] at hle
  omega

/-- A generation is that of one request. -/
theorem began_unique (hj : Justified (fun before e => Current (generationOf before) e) h)
    {generation : ℕ} {req req' : Request} (hbegan : .began generation req ∈ h)
    (hbegan' : .began generation req' ∈ h) : req = req' := by
  induction h using List.reverseRecOn with
  | nil => cases hbegan
  | append_singleton h e ih =>
    obtain ⟨hbefore, hcurrent⟩ := justified_append_singleton_iff.mp hj
    -- the last one would be later than itself
    have hlater (req : Request) (hlast : e = .began generation req) (req' : Request) :
        .began generation req' ∉ h := by
      intro hmem
      subst hlast
      have hle := le_generationOf hbefore hmem rfl
      have hcurrent' : generation = generationOf h + 1 := hcurrent
      omega
    rcases List.mem_append.mp hbegan with hmem | hlast
    · rcases List.mem_append.mp hbegan' with hmem' | hlast'
      · exact ih hbefore hmem hmem'
      · exact absurd hmem (hlater req' (List.mem_singleton.mp hlast').symm req)
    · rcases List.mem_append.mp hbegan' with hmem' | hlast'
      · exact absurd hmem' (hlater req (List.mem_singleton.mp hlast).symm req')
      · have heq := (List.mem_singleton.mp hlast).trans (List.mem_singleton.mp hlast').symm
        exact (Event.began.inj heq).2

/-! ### Waiting for the socket -/

/-- Events that do not change whether XQUIC waits. -/
theorem foldl_waits_of_forall (hes : ∀ e ∈ es, ∀ waiting, waits waiting e = waiting) (waiting : Bool) :
    es.foldl waits waiting = waiting := by
  induction es with
  | nil => rfl
  | cons e es ih =>
    rw [List.foldl_cons, hes e List.mem_cons_self]
    exact ih fun e he => hes e (List.mem_cons_of_mem _ he)

theorem foldl_waits_bodyEvents (waiting : Bool) (generation : ℕ) (ctx : RequestContext)
    (results : List SendResult) : (bodyEvents generation ctx results).foldl waits waiting = waiting := by
  refine foldl_waits_of_forall (fun e he waiting => ?_) waiting
  obtain ⟨call, -, rfl⟩ := List.mem_map.mp he
  rfl

theorem Work.waits (h : Work r engine r' es) :
    es.foldl waits r.waitingWritable = r'.waitingWritable := by
  cases h with
  | tested => rfl
  | quiet _ hwaiting => exact hwaiting
  | handshake outcome =>
    unfold handshakeEvents
    split_ifs
    · rfl
    · cases outcome with
      | createFailed => rfl
      | sendHeadersFailed => rfl
      | sent results => exact foldl_waits_bodyEvents _ _ _ _
  | writable results => exact foldl_waits_bodyEvents _ _ _ _

/-- **The socket is watched for writing exactly while XQUIC waits for it**: from a datagram that the socket
does not take to the call of XQUIC that goes on. -/
theorem watched_of_run (hrun : Run Steps ({}, []) acts (m, h)) (hreq : m.curReq = some r) :
    m.watched = Function.update (fun _ => none) r.sockFd (some ⟨true, h.foldl waits false⟩) := by
  have hinv := invariant_of_run
    (I := fun m h => ∀ r, m.curReq = some r → h.foldl waits false = r.waitingWritable) (by simp) ?_ hrun
  · obtain ⟨hshape, hwaits⟩ := hinv
    rw [hwaits r hreq]
    -- the shape of the machine says what is watched
    cases hshape with
    | rests h => simp [h.curReq] at hreq
    | runs r' engine h =>
      obtain rfl : r' = r := Option.some.inj (h.curReq.symm.trans hreq)
      exact h.watched
    | cleans r' h =>
      obtain rfl : r' = r := Option.some.inj (h.curReq.symm.trans hreq)
      exact h.watched
  intro m m' h es hI hm r hreq
  rw [List.foldl_append]
  cases hm with
  | refused _ h' => simp [h'.curReq] at hreq
  -- a new request waits for nothing
  | @started made req r' engine _ hmade h' _ _ hwaiting =>
    obtain rfl : r' = r := Option.some.inj (h'.curReq.symm.trans hreq)
    rw [hwaiting, List.foldl_append]
    simp [waits]
  | worked h h' _ hwork =>
    obtain rfl := Option.some.inj (h'.curReq.symm.trans hreq)
    rw [hI _ h.curReq]
    exact hwork.waits
  | unconnected _ h' => simp [h'.curReq] at hreq
  | ended h h' =>
    obtain rfl := Option.some.inj (h'.curReq.symm.trans hreq)
    rw [hI _ h.curReq]
    rfl
  | cleaned h h' _ _ hwaiting hes =>
    obtain rfl := Option.some.inj (h'.curReq.symm.trans hreq)
    rw [hwaiting, hI _ h.curReq]
    refine foldl_waits_of_forall (fun e he waiting => ?_) _
    obtain ⟨event, rfl⟩ := hes e he
    rfl
  | released _ h' => simp [h'.curReq] at hreq
  | dropped _ h' => simp [h'.curReq] at hreq

theorem watched_blockedRun :
    (traceOf blockedRun).1.watched = Function.update (fun _ => none) 3 (some ⟨true, true⟩) := by
  have hreq : (traceOf blockedRun).1.curReq =
      some { ctx := newContext postRequest, sockFd := 3, generation := 1, waitingWritable := true } := by
    decide +kernel
  have hwaits : (traceOf blockedRun).2.foldl waits false = true := by decide +kernel
  rw [watched_of_run (m := (traceOf blockedRun).1) (h := (traceOf blockedRun).2) run_blockedRun hreq, hwaits]

/-! ### The answer -/

/-- One more event in the rounds of a loop: those that are over, and what was heard in the one under way. -/
def round (generation : ℕ) (rounds : List (List Http3.Event) × List Http3.Event) :
    Event → List (List Http3.Event) × List Http3.Event
  | .polling generation' => if generation' = generation then (rounds.1 ++ [rounds.2], []) else rounds
  | .heard generation' event =>
    if generation' = generation then (rounds.1, rounds.2 ++ [event]) else rounds
  | _ => rounds

/-- The rounds of the loop of a request; the first one is that of `xqc_h3_connect`. -/
def rounds (generation : ℕ) (h : List Event) : List (List Http3.Event) × List Http3.Event :=
  h.foldl (round generation) ([], [])

/-- What has become of a request outside, as `Http3.request` takes it. -/
def exchangeOf (generation : ℕ) (h : List Event) : Exchange where
  early := if .unconnected generation ∈ h then some .errConnect else none
  polls := (rounds generation h).1 ++ [(rounds generation h).2]

/-- An answer is the one of the request by itself, for what its context has heard in each round. -/
def Answers (before : List Event) : Event → Prop
  | .answered generation reply => ∃ req, .began generation req ∈ before ∧
      reply = Http3.request (exchangeOf generation before) req
  | _ => True

section

variable {generation : ℕ} {req : Request} {ctx : RequestContext}

/-- An event of a request within one round of its loop. -/
def InRound (generation : ℕ) : Event → Prop
  | .polling _ => False
  | .heard generation' _ => generation' = generation
  | _ => True

/-- What is heard in a round is added to it. -/
theorem rounds_append (hes : ∀ e ∈ es, InRound generation e) :
    rounds generation (h ++ es) = ((rounds generation h).1, (rounds generation h).2 ++ heardIn es) := by
  unfold rounds
  rw [List.foldl_append]
  generalize h.foldl (round generation) ([], []) = rounds
  induction es generalizing rounds with
  | nil => simp
  | cons e es ih =>
    have hrest := ih fun e he => hes e (List.mem_cons_of_mem _ he)
    have hfirst := hes e List.mem_cons_self
    rw [List.foldl_cons, hrest]
    cases e with
    | polling generation' => exact hfirst.elim
    | heard generation' event =>
      obtain rfl : generation' = generation := hfirst
      simp [round, heardIn]
    | _ => rfl

/-- The events of other requests do not count. -/
theorem rounds_of_ne (hne : ∀ e ∈ h, e.generation ≠ some generation) :
    rounds generation h = ([], []) := by
  induction h using List.reverseRecOn with
  | nil => rfl
  | append_singleton h e ih =>
    have hbefore := ih fun e he => hne e (List.mem_append_left _ he)
    have hlast := hne e (by simp)
    rw [rounds, List.foldl_append, ← rounds, hbefore]
    cases e with
    | polling generation' => simpa [round, Event.generation] using hlast
    | heard generation' event => simpa [round, Event.generation] using hlast
    | _ => rfl

/-- The context is that of a request whose loop has gone through these rounds. -/
def Played (req : Request) (rounds : List (List Http3.Event) × List Http3.Event) (ctx : RequestContext) :
    Prop :=
  ∃ c : RequestContext, (∀ more, poll (newContext req) (rounds.1 ++ more) = poll c more) ∧
    (c.finished || c.failed) = false ∧ ctx = rounds.2.foldl handle c

theorem played_newContext (req : Request) : Played req ([], []) (newContext req) :=
  ⟨newContext req, fun _ => rfl, rfl, rfl⟩

theorem poll_cons_of_open (hopen : (ctx.finished || ctx.failed) = false)
    (heard : List Http3.Event) (more : List (List Http3.Event)) :
    poll ctx (heard :: more) = poll (heard.foldl handle ctx) more := by
  rw [poll, if_neg (by simp [hopen])]

/-- The context hears more in the round under way. -/
theorem Played.foldl {rounds : List (List Http3.Event) × List Http3.Event} (h : Played req rounds ctx)
    (heard : List Http3.Event) :
    Played req (rounds.1, rounds.2 ++ heard) (heard.foldl handle ctx) := by
  obtain ⟨c, hpoll, hopen, rfl⟩ := h
  exact ⟨c, hpoll, hopen, by rw [List.foldl_append]⟩

/-- The loop goes round once more. -/
theorem Played.tested {rounds : List (List Http3.Event) × List Http3.Event} (h : Played req rounds ctx)
    (hopen : (ctx.finished || ctx.failed) = false) : Played req (rounds.1 ++ [rounds.2], []) ctx := by
  obtain ⟨c, hpoll, hc, rfl⟩ := h
  refine ⟨rounds.2.foldl handle c, fun more => ?_, hopen, rfl⟩
  rw [List.append_assoc, hpoll]
  exact poll_cons_of_open hc rounds.2 more

/-- The loop ends. -/
theorem Played.request_eq {rounds : List (List Http3.Event) × List Http3.Event}
    (h : Played req rounds ctx) :
    Http3.request { polls := rounds.1 ++ [rounds.2] } req =
      judge (!(ctx.finished || ctx.failed)) ctx := by
  obtain ⟨c, hpoll, hopen, rfl⟩ := h
  simp only [Http3.request]
  rw [hpoll, poll_cons_of_open hopen]
  simp [poll]

/-- An event that ends no request. -/
def Open : Event → Prop
  | .unconnected _ => False
  | .answered _ _ => False
  | _ => True

theorem Open.answers {e : Event} (hopen : Open e) (before : List Event) : Answers before e := by
  cases e <;> first | exact hopen.elim | trivial

theorem inRound_bodyEvents (generation : ℕ) (ctx : RequestContext) (results : List SendResult) :
    (∀ e ∈ bodyEvents generation ctx results, InRound generation e ∧ Open e) ∧
      heardIn (bodyEvents generation ctx results) = [] := by
  constructor
  · intro e he
    obtain ⟨call, -, rfl⟩ := List.mem_map.mp he
    exact ⟨trivial, trivial⟩
  · simp [bodyEvents, heardIn, List.filterMap_map]

theorem inRound_handshakeEvents (engine generation : ℕ) (ctx : RequestContext)
    (outcome : HandshakeOutcome) :
    (∀ e ∈ handshakeEvents engine generation ctx outcome, InRound generation e ∧ Open e) ∧
      heardIn (handshakeEvents engine generation ctx outcome) = [] := by
  unfold handshakeEvents
  split_ifs
  · simp
  · cases outcome with
    | createFailed => exact ⟨by simp [InRound, Open], rfl⟩
    | sendHeadersFailed => exact ⟨by simp [InRound, Open], rfl⟩
    | sent results =>
      obtain ⟨hes, hheard⟩ := inRound_bodyEvents generation { ctx with h3Request := true } results
      simp only [List.mem_cons, forall_eq_or_imp]
      exact ⟨⟨⟨trivial, trivial⟩, ⟨trivial, trivial⟩, hes⟩, hheard⟩

theorem Quiet.inRound {e : Event} (hquiet : Quiet r engine e) : InRound r.generation e ∧ Open e := by
  cases e with
  | heard generation event => exact ⟨hquiet, trivial⟩
  | io fd => exact ⟨trivial, trivial⟩
  | blocked generation => exact ⟨trivial, trivial⟩
  | called engine generation call => exact ⟨trivial, trivial⟩
  | _ => exact hquiet.elim

/-- What happens to a running request is what its context hears, and its loop going round. -/
theorem Work.played (hwork : Work r engine r' es) (hp : Played req (rounds r.generation h) r.ctx) :
    Played req (rounds r.generation (h ++ es)) r'.ctx ∧ ∀ e ∈ es, Open e := by
  cases hwork with
  | tested hopen =>
    -- the loop goes round: what was heard so far is one poll
    have hround : rounds r.generation (h ++ [.polling r.generation]) =
        ((rounds r.generation h).1 ++ [(rounds r.generation h).2], []) := by
      simp [rounds, round]
    rw [hround]
    exact ⟨hp.tested hopen, by simp [Open]⟩
  | quiet hes =>
    rw [rounds_append fun e he => (hes e he).inRound.1]
    -- the rest happens within a round
    exact ⟨hp.foldl _, fun e he => (hes e he).inRound.2⟩
  | handshake outcome =>
    obtain ⟨hes, hheard⟩ := inRound_handshakeEvents engine r.generation r.ctx outcome
    have hall : ∀ e ∈ Event.heard r.generation (.handshake outcome) ::
        handshakeEvents engine r.generation r.ctx outcome, InRound r.generation e ∧ Open e := by
      simp only [List.mem_cons, forall_eq_or_imp]
      exact ⟨⟨rfl, trivial⟩, hes⟩
    rw [rounds_append fun e he => (hall e he).1]
    refine ⟨?_, fun e he => (hall e he).2⟩
    rw [← List.singleton_append, heardIn_append, hheard]
    exact hp.foldl [.handshake outcome]
  | writable results =>
    obtain ⟨hes, hheard⟩ := inRound_bodyEvents r.generation r.ctx results
    have hall : ∀ e ∈ Event.heard r.generation (.writable results) ::
        bodyEvents r.generation r.ctx results, InRound r.generation e ∧ Open e := by
      simp only [List.mem_cons, forall_eq_or_imp]
      exact ⟨⟨rfl, trivial⟩, hes⟩
    rw [rounds_append fun e he => (hall e he).1]
    refine ⟨?_, fun e he => (hall e he).2⟩
    rw [← List.singleton_append, heardIn_append, hheard]
    exact hp.foldl [.writable results]

end

/-- What every move keeps. -/
structure Answering (m : Machine) (h : List Event) : Prop where
  justified : Justified Answers h
  running : ∀ r, m.curReq = some r → r.cleanupStarted = false → .unconnected r.generation ∉ h ∧
    ∃ req, .began r.generation req ∈ h ∧ Played req (rounds r.generation h) r.ctx

/-- Events that end no request, and after which none runs. -/
theorem Answering.append (ha : Answering m h) (hopen : ∀ e ∈ es, Open e)
    (hnone : ∀ r, m'.curReq = some r → r.cleanupStarted = true) : Answering m' (h ++ es) where
  justified := ha.justified.append_of_forall fun e he => (hopen e he).answers
  running r hreq hclean := by
    rw [hnone r hreq] at hclean
    cases hclean

theorem answering_of_move (hg : Generations m h) (ha : Answering m h) (hm : Move m m' es) :
    Answering m' (h ++ es) := by
  cases hm with
  | refused _ h' _ hmade hsockets =>
    -- a refused request never began
    refine ha.append ?_ (by simp [h'.curReq])
    obtain rfl | ⟨fd, rfl⟩ := hsockets <;> cases hmade <;> simp [Open]
  | @started made req r engine _ hmade h' hnext hctx =>
    -- no event so far is of the new generation
    have hlt : m.requestGeneration < r.generation := by
      rw [h'.generation, hnext]
      exact Nat.lt_succ_self _
    have hbefore := hg.ne_of_lt hlt
    have hopen : ∀ e ∈ made ++ [.opened r.sockFd, .began r.generation req,
        .called engine r.generation .connect], InRound r.generation e ∧ Open e := by
      cases hmade <;> simp [InRound, Open]
    refine ⟨ha.justified.append_of_forall fun e he => (hopen e he).2.answers, fun r' hreq _ => ?_⟩
    obtain rfl : r = r' := Option.some.inj (h'.curReq.symm.trans hreq)
    refine ⟨fun hmem => ?_, req, by simp, ?_⟩
    · rcases List.mem_append.mp hmem with hmem | hmem
      · exact hbefore _ hmem rfl
      · exact (hopen _ hmem).2
    · have hheard : heardIn (made ++ [.opened r.sockFd, .began r.generation req,
          .called engine r.generation .connect]) = [] := by
        cases hmade <;> rfl
      rw [rounds_append fun e he => (hopen e he).1, rounds_of_ne hbefore, hheard, hctx]
      exact played_newContext req
  | worked h h' _ hwork =>
    obtain ⟨hconnected, req, hbegan, hp⟩ := ha.running _ h.curReq h.cleanup
    obtain ⟨hp', hopen⟩ := hwork.played hp
    -- what the work says is heard, and answers nothing
    refine ⟨ha.justified.append_of_forall fun e he => (hopen e he).answers, fun r' hreq _ => ?_⟩
    obtain rfl := Option.some.inj (h'.curReq.symm.trans hreq)
    rw [hwork.generation_eq]
    refine ⟨fun hmem => ?_, req, List.mem_append_left _ hbegan, hp'⟩
    rcases List.mem_append.mp hmem with hmem | hmem
    · exact hconnected hmem
    · exact hopen _ hmem
  | @unconnected r engine hruns h' =>
    obtain ⟨-, req, hbegan, -⟩ := ha.running _ hruns.curReq hruns.cleanup
    have hclosed : Justified Answers (h ++ [.unconnected r.generation, .closed r.sockFd]) :=
      ha.justified.append_of_forall (by simp [Answers])
    -- what is answered early depends on nothing that was heard
    have hanswer : Answers (h ++ [.unconnected r.generation, .closed r.sockFd])
        (.answered r.generation { errCode := .errConnect }) :=
      ⟨req, by simp [hbegan], by simp [exchangeOf, Http3.request]⟩
    refine ⟨?_, by simp [h'.curReq]⟩
    have hboth := justified_append_singleton_iff.mpr ⟨hclosed, hanswer⟩
    rw [List.append_assoc] at hboth
    exact hboth
  | @ended r engine timedOut hruns h' _ htimedOut =>
    obtain ⟨hconnected, req, hbegan, hp⟩ := ha.running _ hruns.curReq hruns.cleanup
    have hstats : Justified Answers (h ++ [.called engine r.generation .getStats]) :=
      ha.justified.append_of_forall (by simp [Answers])
    -- what is judged is what the loop has come to
    have hexchange : exchangeOf r.generation (h ++ [.called engine r.generation .getStats]) =
        { polls := (rounds r.generation h).1 ++ [(rounds r.generation h).2] } := by
      rw [exchangeOf, if_neg (by simpa using hconnected), rounds_append (by simp [InRound])]
      simp [heardIn]
    have hanswer : Answers (h ++ [.called engine r.generation .getStats])
        (.answered r.generation (judge timedOut r.ctx)) :=
      ⟨req, by simp [hbegan], by rw [hexchange, hp.request_eq, htimedOut]⟩
    refine ⟨?_, ?_⟩
    · have hdestroyed : Justified Answers (h ++ [.called engine r.generation .getStats] ++
          [.answered r.generation (judge timedOut r.ctx)] ++ [.destroyed engine]) :=
        (justified_append_singleton_iff.mpr ⟨hstats, hanswer⟩).append_of_forall (by simp [Answers])
      rw [List.append_assoc, List.append_assoc] at hdestroyed
      exact hdestroyed
    · intro r' hreq hclean
      obtain rfl := Option.some.inj (h'.curReq.symm.trans hreq)
      cases hclean
  | cleaned h h' _ _ _ hes =>
    -- while XQUIC is destroyed nothing is answered
    refine ha.append (fun e he => ?_) (by simp [h'.curReq, h'.cleanup])
    obtain ⟨event, rfl⟩ := hes e he
    trivial
  | released _ h' => exact ha.append (by simp [Open]) (by simp [h'.curReq])
  | dropped _ h' => exact ha.append (by simp [Open]) (by simp [h'.curReq])

/-- **An answer is the one of the request by itself**: what `request` gives when each of its polls brings
what the context has heard in that round of the loop, and a failure of `xqc_h3_connect` ends it early. -/
theorem answered_of_run (hrun : Run Steps ({}, []) acts (m, h)) : Justified Answers h :=
  (invariant_of_run_current (I := Answering) ⟨justified_nil, by simp⟩
    (fun _ _ _ _ => answering_of_move) hrun).2.justified

/-- `xqc_h3_connect` brings nothing, and one round of the loop all of the response. -/
theorem answered_postRun : Justified Answers (traceOf postRun).2 ∧
    .answered 1 { errCode := .ok, httpStatus := 200 } ∈ (traceOf postRun).2 ∧
    exchangeOf 1 (traceOf postRun).2 = {
      polls := [[], [.handshake (.sent [.sent 2, .again]), .writable [.sent 1],
        .readable { header := some (some ([⟨ascii ":status", ascii "200"⟩], true)) }]] } :=
  ⟨answered_of_run run_postRun, by decide +kernel, by decide +kernel⟩

end Drive

end Http3

end AsterNet
