import AsterNet.Engine.Http2.Message
import AsterNet.Engine.Http2.Receive

/-!
# The receive order of an HTTP/2 connection

`passed_eq_read`: when nghttp2 takes whole inputs, the inputs of `nghttp2_session_mem_recv` on a connection
that requests have left open are, one after the other, what `SSL_read` has returned on it.  Between two
turns `pending_data` is empty (`CaughtUp`), and within a turn it is what has been read and not passed
(`Ordered`); every exit of the loop at another point closes the connection.

`exists_request_eq`: without its bytes, a request is one of `Http2.request`.
-/

namespace AsterNet

namespace Http2

open ByteString

/-! ### The invariant -/

/-- What is pending has been read after what has been passed. -/
def Ordered (s : WireCtx) : Prop :=
  s.wire.passed.flatten ++ s.pendingData = s.wire.read

/-- All that has been read has been passed. -/
def Wire.CaughtUp (wire : Wire) : Prop :=
  wire.passed.flatten = wire.read

/-- Between two turns nothing is pending. -/
structure WireCtx.CaughtUp (s : WireCtx) : Prop where
  pending : s.pendingData = []
  wire : s.wire.CaughtUp

/-- `nghttp2_session_mem_recv` takes the whole input when it does not fail. -/
def MemRecv.ConsumesAll (recv : MemRecv) : Prop :=
  ∀ bytes, 0 ≤ (recv bytes).1 → (recv bytes).1 = bytes.length

/-- The calls of a turn take whole inputs. -/
def WireTurn.ConsumesAll (turn : WireTurn) : Prop :=
  turn.recvPending.ConsumesAll ∧ ∀ reads recv, turn.receive = .readable reads recv → recv.ConsumesAll

variable {s s' : WireCtx} {turn : WireTurn} {recv : MemRecv} {bytes : Bytes}

theorem WireCtx.CaughtUp.ordered (h : s.CaughtUp) : Ordered s := by
  rw [Ordered, h.pending, List.append_nil]
  exact h.wire

theorem ordered_drain (h : Ordered s) : Ordered (s.drain bytes) := by
  unfold Ordered at h ⊢
  simp only [WireCtx.drain, Wire.readBytes]
  rw [← List.append_assoc, h]

/-- `send_callback` appends what it reads, in order. -/
theorem ordered_sendCallback {length sent : ℕ} {writes : List SslWrite} (h : Ordered s) :
    Ordered (sendCallback length writes sent s).2 := by
  -- the induction is on the writes; a write that wants to read drains the socket first
  induction writes generalizing sent s with
  | nil => exact h
  | cons write writes ih =>
    rw [sendCallback.eq_def]
    dsimp only
    split_ifs
    · exact h
    · cases write with
      | wrote n => exact ih h
      | wantWrite ready =>
        cases ready with
        | false => exact h
        | true => exact ih h
      | wantRead ready drain =>
        cases ready with
        | false => exact h
        | true =>
          -- what was drained goes behind what was read before
          cases drain with
          | read bytes =>
            by_cases hpos : 0 < bytes.length
            · simp only [if_pos hpos, if_true]
              exact ih (ordered_drain h)
            · simp only [if_neg hpos, if_true]
              exact h
          | wantRead => exact ih h
          | wantWrite ready => exact ih h
          | failed => exact h
      | failed => exact h

theorem ordered_sessionSend {sends : List (ℕ × List SslWrite)} (h : Ordered s) :
    Ordered (sessionSend sends s).2 := by
  induction sends generalizing s with
  | nil => exact h
  | cons send sends ih =>
    obtain ⟨length, writes⟩ := send
    have hsend := @ordered_sendCallback s length 0 writes h
    rw [sessionSend]
    generalize sendCallback length writes 0 s = result at hsend ⊢
    obtain ⟨sent, s⟩ := result
    cases sent with
    | false => exact hsend
    | true => exact ih hsend

/-- An input is consumed whole when the call does not fail. -/
theorem consumed_of_passBytes (hall : recv.ConsumesAll) (h : ¬ (passBytes recv bytes s).1 < 0) :
    (passBytes recv bytes s).1.toNat = bytes.length := by
  unfold passBytes at h ⊢
  dsimp only at h ⊢
  split_ifs at h ⊢
  · exact absurd (by decide) h
  · rw [hall bytes (by omega)]
    rfl

/-- **The send phase** passes what it has read. -/
theorem caughtUp_sendPhase (hall : turn.recvPending.ConsumesAll) (h : s.CaughtUp)
    (hgo : sendPhase turn s = .go s') : s'.CaughtUp := by
  have hsend := @ordered_sessionSend s turn.sends h.ordered
  unfold sendPhase at hgo
  generalize sessionSend turn.sends s = result at hsend hgo
  obtain ⟨sent, t⟩ := result
  dsimp only at hsend hgo
  split_ifs at hgo with hfail hempty hconsumed
  · obtain rfl := Phase.go.inj hgo
    rw [List.isEmpty_iff] at hempty
    refine ⟨hempty, ?_⟩
    rwa [Ordered, hempty, List.append_nil] at hsend
  · obtain rfl := Phase.go.inj hgo
    have hlen := consumed_of_passBytes hall hconsumed
    constructor
    · dsimp only
      rw [hlen]
      exact List.drop_length
    · simp only [Wire.CaughtUp, passBytes, List.flatten_append, List.flatten_singleton]
      exact hsend

/-- **The receive phase** passes what it has read. -/
theorem caughtUp_receivePhase
    (hall : ∀ reads recv, turn.receive = .readable reads recv → recv.ConsumesAll) (h : s.CaughtUp)
    (hgo : receivePhase turn s = .go s') : s'.CaughtUp := by
  unfold receivePhase at hgo
  -- only a readable socket brings bytes, and only when `SSL_read` has some
  cases hreceive : turn.receive with
  | timeout => simp [hreceive] at hgo
  | idle =>
    rw [hreceive] at hgo
    obtain rfl := Phase.go.inj hgo
    exact h
  | readable reads recv =>
    rw [hreceive] at hgo
    dsimp only at hgo
    cases hread : readLoop reads with
    | read bytes =>
      rw [hread] at hgo
      dsimp only at hgo
      split_ifs at hgo with hpos hconsumed
      obtain rfl := Phase.go.inj hgo
      -- nghttp2 consumes everything, so nothing is left over
      have hlen := consumed_of_passBytes (hall reads recv hreceive) hconsumed
      constructor
      · dsimp only
        rw [hlen, List.drop_length, List.append_nil]
        exact h.pending
      · simp only [Wire.CaughtUp, passBytes, Wire.readBytes, List.flatten_append, List.flatten_singleton]
        rw [show s.wire.passed.flatten = s.wire.read from h.wire]
    | wantRead =>
      rw [hread] at hgo
      obtain rfl := Phase.go.inj hgo
      exact h
    | wantWrite ready => simp [hread] at hgo
    | failed => simp [hread] at hgo

/-! ### The exits of the loop -/

theorem sendPhase_stop {ret : Result} (h : sendPhase turn s = .stop ret s') : ret ≠ .ok := by
  rintro rfl
  unfold sendPhase at h
  dsimp only at h
  split_ifs at h <;> simp at h

theorem receivePhase_stop {ret : Result} (h : receivePhase turn s = .stop ret s') : ret ≠ .ok := by
  rintro rfl
  unfold receivePhase at h
  cases hreceive : turn.receive with
  | timeout => simp [hreceive] at h
  | idle => simp [hreceive] at h
  | readable reads recv =>
    rw [hreceive] at h
    dsimp only at h
    cases hread : readLoop reads with
    | read bytes =>
      rw [hread] at h
      dsimp only at h
      split_ifs at h <;> simp at h
    | wantRead => simp [hread] at h
    | wantWrite ready => simp [hread] at h
    | failed => simp [hread] at h

/-- The loop ends well at a point where everything has been passed. -/
theorem caughtUp_wireLoop {turns : List WireTurn} (hall : ∀ turn ∈ turns, turn.ConsumesAll)
    (h : s.CaughtUp) (hok : (wireLoop s turns).1 = .ok) : (wireLoop s turns).2.CaughtUp := by
  -- the induction is on the turns, each of which sends and then receives
  induction turns generalizing s with
  | nil =>
    rw [wireLoop] at hok ⊢
    split_ifs at hok ⊢
    exact h
  | cons turn turns ih =>
    obtain ⟨hturn, hturns⟩ := List.forall_mem_cons.mp hall
    rw [wireLoop] at hok ⊢
    split_ifs at hok ⊢
    · exact h
    · cases hsend : sendPhase turn s with
      | stop ret t =>
        -- a phase that stops does not stop with OK
        rw [hsend] at hok
        exact absurd hok (sendPhase_stop hsend)
      | go t =>
        have ht := caughtUp_sendPhase hturn.1 h hsend
        rw [hsend] at hok
        dsimp only at hok ⊢
        split_ifs at hok ⊢
        · exact ht
        · cases hreceive : receivePhase turn t with
          | stop ret u =>
            rw [hreceive] at hok
            exact absurd hok (receivePhase_stop hreceive)
          | go u =>
            rw [hreceive] at hok
            exact ih hturns (caughtUp_receivePhase hturn.2 ht hreceive) hok

theorem eq_ok_of_judge {ret : Result} {ctx : H2Ctx} (h : judge ret ctx = .ok) : ret = .ok := by
  unfold judge at h
  split_ifs at h
  exact h

/-! ### Requests -/

/-- The connection of the engine is at a point where everything has been passed. -/
def WireEngine.CaughtUp (engine : WireEngine) : Prop :=
  ∀ key wire, engine.connection = some (key, wire) → wire.CaughtUp

theorem caughtUp_closed {engine : WireEngine} : { engine with connection := none }.CaughtUp := by
  rintro key wire ⟨⟩

/-- A request gets a connection at such a point, its own or a new one. -/
theorem caughtUp_ensureConnection {dialed : Except DialFailure Unit} {engine : WireEngine} {req : Request}
    {key : PoolKey} {wire : Wire} {reused : Bool} (h : engine.CaughtUp)
    (hensure : ensureConnection (fun _ _ => dialed.map fun _ => {}) engine.settings engine.connection req =
      .ok ((key, wire), reused)) : wire.CaughtUp := by
  -- a new connection has read nothing
  have hnew : ∀ {key'}, (dialed.map fun _ => ({} : Wire)).map (fun c => ((key', c), false)) =
      .ok ((key, wire), reused) → wire.CaughtUp := by
    intro key' heq
    cases dialed with
    | error failure => cases heq
    | ok u =>
      cases heq
      rfl
  unfold ensureConnection at hensure
  dsimp only at hensure
  cases hconnection : engine.connection with
  | none =>
    rw [hconnection] at hensure
    exact hnew hensure
  | some connection =>
    obtain ⟨key', wire'⟩ := connection
    rw [hconnection] at hensure
    dsimp only at hensure
    split_ifs at hensure
    · cases hensure
      exact h _ _ hconnection
    · exact hnew hensure

/-- **A request leaves the connection at such a point**, if it leaves one. -/
theorem caughtUp_wireRequest {outside : WireExchange} {engine : WireEngine} {req : Request}
    (hall : ∀ turn ∈ outside.turns, turn.ConsumesAll) (h : engine.CaughtUp) :
    (wireRequest outside engine req).2.CaughtUp := by
  unfold wireRequest
  dsimp only
  -- each way out in front of the exchange closes the connection
  by_cases hcrlf : (hasCrlf req.host || hasCrlf req.connectHost || hasCrlf req.method ||
      hasCrlf req.path) = true
  · rw [if_pos hcrlf]
    exact h
  rw [if_neg hcrlf]
  cases hensure : ensureConnection (fun _ _ => outside.dial.map fun _ => ({} : Wire)) engine.settings
    engine.connection req with
  | error failure => exact caughtUp_closed
  | ok result =>
    obtain ⟨⟨key, wire⟩, reused⟩ := result
    have hwire := caughtUp_ensureConnection h hensure
    dsimp only
    by_cases hsettings : reused = false ∧ outside.settings ≠ .ok
    · rw [if_pos hsettings]
      exact caughtUp_closed
    rw [if_neg hsettings]
    by_cases halpn : outside.alpn ≠ ascii "h2"
    · rw [if_pos halpn]
      exact caughtUp_closed
    rw [if_neg halpn]
    cases customHeaders req.headers with
    | none => exact caughtUp_closed
    | some custom =>
      dsimp only
      by_cases hstream : outside.streamId < 0
      · rw [if_pos hstream]
        exact caughtUp_closed
      rw [if_neg hstream]
      intro key' wire' hkept
      unfold wireExchange at hkept
      dsimp only at hkept
      split_ifs at hkept with hkeep
      obtain ⟨rfl, rfl⟩ := Prod.mk.inj (Option.some.inj hkept)
      -- the connection is kept after an OK only
      simp only [keepsConnection, Bool.and_eq_true, decide_eq_true_eq] at hkeep
      have hok := eq_ok_of_judge hkeep.1.1.1.1.1.1
      exact (caughtUp_wireLoop hall ⟨rfl, hwire⟩ hok).wire

/-- One request of a sequence. -/
def serve (engine : WireEngine) (call : Request × WireExchange) : WireEngine :=
  (wireRequest call.2 engine call.1).2

/-- **What is passed is what is read**, over all requests of a connection that is open. -/
theorem passed_eq_read {settings : TlsSettings} {calls : List (Request × WireExchange)} {key : PoolKey}
    {wire : Wire} (hall : ∀ call ∈ calls, ∀ turn ∈ call.2.turns, turn.ConsumesAll)
    (h : (calls.foldl serve { settings := settings }).connection = some (key, wire)) :
    wire.passed.flatten = wire.read := by
  suffices hcaught : ∀ engine : WireEngine, engine.CaughtUp → (calls.foldl serve engine).CaughtUp by
    exact hcaught { settings := settings } (fun _ _ hnone => by cases hnone) key wire h
  intro engine hengine
  clear h
  induction calls generalizing engine with
  | nil => exact hengine
  | cons call calls ih =>
    obtain ⟨hcall, hcalls⟩ := List.forall_mem_cons.mp hall
    exact ih hcalls _ (caughtUp_wireRequest hcall hengine)

/-- A response with no body to stream 1. -/
def okCallbacks : List Callback :=
  (statusBlock 200 []).callbacks 1 .response true

/-- `send_callback` reads two bytes before it can write, the loop passes them and reads the third one. -/
def drainTurn : WireTurn where
  sends := [(24, [.wantRead true (.read [1, 2]), .wrote 24])]
  recvPending bytes := (bytes.length, [])
  receive := .readable [.read [3]] fun bytes => (bytes.length, okCallbacks)

/-- A `GET` of `/`. -/
def getRequest : Request where
  host := ascii "h"
  method := ascii "GET"
  path := ascii "/"

/-- Two requests on one connection. -/
theorem passed_eq_read_drain : ∃ key wire,
    ([(getRequest, { dial := .ok (), streamId := 1, turns := [drainTurn] }),
      (getRequest, { dial := .ok (), streamId := 1, turns := [drainTurn] })].foldl serve
        { settings := {} }).connection = some (key, wire) ∧ wire.read.length = 6 ∧
      wire.passed.flatten = wire.read := by
  have hall : drainTurn.ConsumesAll := by
    refine ⟨fun bytes _ => rfl, fun reads recv heq => ?_⟩
    obtain ⟨-, rfl⟩ := Receive.readable.inj heq
    exact fun bytes _ => rfl
  refine ⟨poolKey {} getRequest, ⟨[1, 2, 3, 1, 2, 3], [[1, 2], [3], [1, 2], [3]]⟩, ?_, rfl, ?_⟩
  · decide +kernel
  · refine @passed_eq_read {} [(getRequest, { dial := .ok (), streamId := 1, turns := [drainTurn] }),
      (getRequest, { dial := .ok (), streamId := 1, turns := [drainTurn] })] (poolKey {} getRequest) _ ?_ ?_
    · intro call hcall turn hturn
      simp only [List.mem_cons, List.not_mem_nil, or_false, or_self] at hcall
      rw [hcall, List.mem_singleton] at hturn
      rw [hturn]
      exact hall
    · decide +kernel

/-! ### Without the bytes -/

/-- What the loop makes of a phase, in the model without the bytes. -/
def Phase.thenLoop (turns : List Turn) : Phase → Result × H2Ctx
  | .go s => loop s.ctx turns
  | .stop ret s => (ret, s.ctx)

theorem ctx_sendCallback {length sent : ℕ} {writes : List SslWrite} :
    (sendCallback length writes sent s).2.ctx = s.ctx := by
  induction writes generalizing sent s with
  | nil => rfl
  | cons write writes ih =>
    rw [sendCallback.eq_def]
    dsimp only
    split_ifs
    · rfl
    · cases write with
      | wrote n => exact ih
      | wantWrite ready =>
        cases ready with
        | false => rfl
        | true => exact ih
      | wantRead ready drain =>
        cases ready with
        | false => rfl
        | true =>
          cases drain with
          | read bytes =>
            by_cases hpos : 0 < bytes.length
            · simp only [if_pos hpos, if_true]
              exact ih
            · simp only [if_neg hpos, if_true]
          | wantRead => exact ih
          | wantWrite ready => exact ih
          | failed => rfl
      | failed => rfl

theorem ctx_sessionSend {sends : List (ℕ × List SslWrite)} : (sessionSend sends s).2.ctx = s.ctx := by
  induction sends generalizing s with
  | nil => rfl
  | cons send sends ih =>
    obtain ⟨length, writes⟩ := send
    have hsend := @ctx_sendCallback s length 0 writes
    rw [sessionSend]
    generalize sendCallback length writes 0 s = result at hsend ⊢
    obtain ⟨sent, t⟩ := result
    cases sent with
    | false => exact hsend
    | true =>
      dsimp only
      rw [ih]
      exact hsend

/-- The streams that are reported as closed before an input. -/
theorem memRecv_closes {ctx : H2Ctx} {closes : List (ℤ × ℕ)} {callbacks : List Callback} :
    memRecv ctx (closes.map (fun close => .streamClose close.1 close.2) ++ callbacks) =
      memRecv (closes.foldl (fun ctx close => onStreamCloseCallback ctx close.1 close.2) ctx)
        callbacks := by
  induction closes generalizing ctx with
  | nil => rfl
  | cons close closes ih =>
    rw [List.map_cons, List.cons_append, memRecv, List.foldl_cons, ← ih]
    rfl

/-- A call of `nghttp2_session_mem_recv`. -/
theorem loop_received {ctx : H2Ctx} {callbacks : List Callback} {failed : Bool} {turns : List Turn}
    (hopen : ctx.streamClosed = false) : loop ctx (.received callbacks failed :: turns) =
      if (memRecv ctx callbacks).1 || failed then (.errProtocol, (memRecv ctx callbacks).2)
      else loop (memRecv ctx callbacks).2 turns := by
  rw [loop, hopen]
  rfl

/-- A call fails when a callback does, or by itself. -/
theorem passBytes_neg_iff : (passBytes recv bytes s).1 < 0 ↔
    ((memRecv s.ctx (recv bytes).2).1 || decide ((recv bytes).1 < 0)) = true := by
  unfold passBytes
  dsimp only
  cases (memRecv s.ctx (recv bytes).2).1 with
  | false => simp
  | true => simp [errCallbackFailure]

/-- A send phase is one turn without the bytes. -/
theorem exists_sendPhase_eq (turn : WireTurn) (hopen : s.ctx.streamClosed = false) :
    ∃ turn', ∀ turns, loop s.ctx (turn' :: turns) = (sendPhase turn s).thenLoop turns := by
  have hctx := @ctx_sessionSend s turn.sends
  unfold sendPhase
  generalize sessionSend turn.sends s = result at hctx ⊢
  obtain ⟨sent, t⟩ := result
  dsimp only at hctx ⊢
  split_ifs with hfail hempty hconsumed
  · refine ⟨.sendFailed, fun turns => ?_⟩
    rw [loop, hopen, Phase.thenLoop, hctx]
    rfl
  · refine ⟨.received (turn.closes.map (fun close => .streamClose close.1 close.2) ++ []), fun turns => ?_⟩
    rw [loop_received hopen, memRecv_closes, Phase.thenLoop, hctx]
    rfl
  all_goals
    refine ⟨.received (turn.closes.map (fun close => .streamClose close.1 close.2) ++
      (turn.recvPending t.pendingData).2) (decide ((turn.recvPending t.pendingData).1 < 0)),
      fun turns => ?_⟩
    rw [passBytes_neg_iff] at hconsumed
    rw [loop_received hopen, memRecv_closes, Phase.thenLoop, ← hctx]
  · rw [if_pos hconsumed]
    rfl
  · rw [if_neg hconsumed]
    rfl

/-- So is a receive phase. -/
theorem exists_receivePhase_eq (turn : WireTurn) (hopen : s.ctx.streamClosed = false) :
    ∃ turn', ∀ turns, loop s.ctx (turn' :: turns) = (receivePhase turn s).thenLoop turns := by
  unfold receivePhase
  cases turn.receive with
  | timeout => exact ⟨.timeout, fun turns => by rw [loop, hopen]; rfl⟩
  | idle => exact ⟨.idle, fun turns => by rw [loop, hopen]; rfl⟩
  | readable reads recv =>
    dsimp only
    cases readLoop reads with
    | read bytes =>
      dsimp only
      split_ifs with hpos hconsumed
      all_goals try rw [passBytes_neg_iff] at hconsumed
      · refine ⟨.received (recv bytes).2 (decide ((recv bytes).1 < 0)), fun turns => ?_⟩
        rw [loop_received hopen, if_pos hconsumed]
        rfl
      · refine ⟨.received (recv bytes).2 (decide ((recv bytes).1 < 0)), fun turns => ?_⟩
        rw [loop_received hopen, if_neg hconsumed]
        rfl
      · exact ⟨.closed, fun turns => by rw [loop, hopen]; rfl⟩
    | wantRead => exact ⟨.idle, fun turns => by rw [loop, hopen]; rfl⟩
    | wantWrite ready => exact ⟨.readFailed, fun turns => by rw [loop, hopen]; rfl⟩
    | failed => exact ⟨.readFailed, fun turns => by rw [loop, hopen]; rfl⟩

/-- The loop without the bytes. -/
theorem exists_loop_eq (s : WireCtx) (turns : List WireTurn) : ∃ turns',
    loop s.ctx turns' = ((wireLoop s turns).1, (wireLoop s turns).2.ctx) := by
  -- a turn with bytes is at most two turns without: one of the sending, one of the receiving
  induction turns generalizing s with
  | nil =>
    refine ⟨[], ?_⟩
    rw [loop, wireLoop]
    split_ifs <;> rfl
  | cons turn turns ih =>
    rw [wireLoop]
    cases hopen : s.ctx.streamClosed with
    | true => exact ⟨[], by rw [loop, hopen]; rfl⟩
    | false =>
      obtain ⟨sending, hsending⟩ := exists_sendPhase_eq turn hopen
      cases hsend : sendPhase turn s with
      | stop ret t =>
        refine ⟨[sending], ?_⟩
        rw [hsending, hsend]
        rfl
      | go t =>
        rw [hsend] at hsending
        cases hclosed : t.ctx.streamClosed with
        | true =>
          refine ⟨[sending], ?_⟩
          rw [hsending, Phase.thenLoop, loop]
          simp only [hclosed, if_true, Bool.false_eq_true, if_false]
        | false =>
          obtain ⟨receiving, hreceiving⟩ := exists_receivePhase_eq turn hclosed
          cases hreceive : receivePhase turn t with
          | stop ret u =>
            refine ⟨[sending, receiving], ?_⟩
            rw [hsending, Phase.thenLoop, hreceiving, hreceive]
            simp only [hclosed, hreceive, Bool.false_eq_true, if_false]
            rfl
          | go u =>
            obtain ⟨turns', hturns'⟩ := ih u
            refine ⟨sending :: receiving :: turns', ?_⟩
            rw [hsending, Phase.thenLoop, hreceiving, hreceive, Phase.thenLoop, hturns']
            simp only [hclosed, hreceive, Bool.false_eq_true, if_false]

/-- The engine without the bytes of its connection. -/
def WireEngine.erase (engine : WireEngine) : Http2Engine where
  settings := engine.settings
  connection := engine.connection.map fun connection => (connection.1, ())

theorem ensureConnection_erase {dialed : Except DialFailure Unit} {engine : WireEngine} {req : Request} :
    ensureConnection (fun _ _ => dialed) engine.erase.settings engine.erase.connection req =
      (ensureConnection (fun _ _ => dialed.map fun _ => ({} : Wire)) engine.settings engine.connection
        req).map fun result => ((result.1.1, ()), result.2) := by
  have hnew : ∀ key : PoolKey, dialed.map (fun c => ((key, c), false)) =
      ((dialed.map fun _ => ({} : Wire)).map fun c => ((key, c), false)).map
        fun result => ((result.1.1, ()), result.2) := by
    intro key
    cases dialed <;> rfl
  unfold ensureConnection WireEngine.erase
  cases engine.connection with
  | none => exact hnew _
  | some connection =>
    obtain ⟨key, wire⟩ := connection
    dsimp only [Option.map_some]
    split_ifs
    · rfl
    · exact hnew _

/-- **A request without its bytes** is a request of the model that has none. -/
theorem exists_request_eq (outside : WireExchange) (engine : WireEngine) (req : Request) : ∃ turns,
    request (fun _ _ => outside.dial) ⟨outside.settings, outside.alpn, outside.streamId, turns⟩
        engine.erase req =
      ((wireRequest outside engine req).1, (wireRequest outside engine req).2.erase) := by
  -- the loops agree for every connection; what is in front of them does not read a byte
  have hloop : ∀ wire, ∃ turns, loop (newContext req outside.streamId) turns =
      ((wireLoop { ctx := newContext req outside.streamId, wire := wire } outside.turns).1,
        (wireLoop { ctx := newContext req outside.streamId, wire := wire } outside.turns).2.ctx) :=
    fun wire => exists_loop_eq { ctx := newContext req outside.streamId, wire := wire } outside.turns
  unfold request wireRequest
  dsimp only
  rw [ensureConnection_erase]
  cases ensureConnection (fun _ _ => outside.dial.map fun _ => ({} : Wire)) engine.settings
    engine.connection req with
  | error failure =>
    refine ⟨[], ?_⟩
    split_ifs <;> rfl
  | ok result =>
    obtain ⟨⟨key, wire⟩, reused⟩ := result
    obtain ⟨turns, hturns⟩ := hloop wire
    refine ⟨turns, ?_⟩
    dsimp only [Except.map]
    by_cases hcrlf : (hasCrlf req.host || hasCrlf req.connectHost || hasCrlf req.method ||
        hasCrlf req.path) = true
    · rw [if_pos hcrlf, if_pos hcrlf]
    rw [if_neg hcrlf, if_neg hcrlf]
    by_cases hsettings : reused = false ∧ outside.settings ≠ .ok
    · rw [if_pos hsettings, if_pos hsettings]
      rfl
    rw [if_neg hsettings, if_neg hsettings]
    by_cases halpn : outside.alpn ≠ ascii "h2"
    · rw [if_pos halpn, if_pos halpn]
      rfl
    rw [if_neg halpn, if_neg halpn]
    cases customHeaders req.headers with
    | none => rfl
    | some custom =>
      dsimp only
      by_cases hstream : outside.streamId < 0
      · rw [if_pos hstream, if_pos hstream]
        rfl
      rw [if_neg hstream, if_neg hstream]
      unfold exchange wireExchange
      dsimp only
      rw [hturns]
      dsimp only
      split_ifs <;> rfl

end Http2

end AsterNet
