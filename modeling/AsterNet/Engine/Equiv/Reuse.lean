import AsterNet.Engine.Http1.Equiv.Request
import AsterNet.Engine.Http2.Engine
import AsterNet.Lib.Transition

/-!
# The pooled connection of an engine

`PoolingEngine` is an engine that pools one connection, as far as connections go, with what the code of
`ensure_connection` and the exits of `request` say of it.  `Http1.pooling` and `Http2.pooling` are the two
engines.

`Watched` follows an engine through requests and migrations and keeps the life of the connection it pools:
what it was opened for, when, and how the requests on it ended.  `OpenedFor` is what a request needs of one.

* `Inv`: the pooled connection has a life, and it is the one its key tells.
* `reuses`: a request only ever gets a connection opened for the same six fields, after the last
  migration, all requests on which returned OK; and one that fails leaves no connection behind.
-/

namespace AsterNet

open Transition

/-- What a request does about a connection. -/
inductive Use
  /-- It returns before it looks for one. -/
  | untouched
  /-- None could be opened. -/
  | unopened
  | reused
  | opened (key : PoolKey)
  deriving DecidableEq, Repr

/-- The request has a connection. -/
def Use.IsConnected : Use → Prop
  | .reused | .opened _ => True
  | _ => False

theorem Use.IsConnected.ne_untouched {use : Use} (h : use.IsConnected) : use ≠ .untouched := by
  rintro rfl
  exact h

/-- What `ensure_connection` does about a connection. -/
def useOf {κ : Type} (dial : PoolKey → ℤ → Except DialFailure κ) (settings : TlsSettings)
    (connection : Option (PoolKey × κ)) (req : Request) : Use :=
  match ensureConnection dial settings connection req with
  | .error _ => .unopened
  | .ok (_, true) => .reused
  | .ok ((key, _), false) => .opened key

/-- An engine that pools one connection.  `ω` is what happens outside during one request. -/
structure PoolingEngine (ε ω : Type) where
  request : ω → ε → Request → Result × ε
  migrateConnection : ε → ε
  use : ω → ε → Request → Use
  settings : ε → TlsSettings
  /-- The key of the pooled connection. -/
  pooled : ε → Option PoolKey
  settings_request : ∀ outside engine req,
    settings (request outside engine req).2 = settings engine
  settings_migrate : ∀ engine, settings (migrateConnection engine) = settings engine
  /-- A connection is reused under the key the request needs. -/
  pooled_of_reused : ∀ {outside engine req}, use outside engine req = .reused →
    pooled engine = some (poolKey (settings engine) req)
  /-- A connection is opened for the key the request needs. -/
  key_of_opened : ∀ {outside engine req key}, use outside engine req = .opened key →
    key = poolKey (settings engine) req
  pooled_of_untouched : ∀ {outside engine req}, use outside engine req = .untouched →
    pooled (request outside engine req).2 = pooled engine
  pooled_of_unopened : ∀ {outside engine req}, use outside engine req = .unopened →
    pooled (request outside engine req).2 = none
  /-- A connection is kept after a request that returned OK on it. -/
  kept : ∀ {outside engine req key}, use outside engine req ≠ .untouched →
    pooled (request outside engine req).2 = some key →
      (request outside engine req).1 = .ok ∧ key = poolKey (settings engine) req
  pooled_migrate : ∀ engine, pooled (migrateConnection engine) = none

/-! ### `ensure_connection` -/

section

variable {κ : Type} {dial : PoolKey → ℤ → Except DialFailure κ} {settings : TlsSettings}
  {connection : Option (PoolKey × κ)} {req : Request} {key : PoolKey} {c : κ} {reused : Bool}

theorem useOf_unopened_iff : useOf dial settings connection req = .unopened ↔
    ∃ failure, ensureConnection dial settings connection req = .error failure := by
  unfold useOf
  split
  · rename_i failure hfailure
    exact ⟨fun _ => ⟨failure, hfailure⟩, fun _ => rfl⟩
  · rename_i c hc
    rw [hc]
    simp
  · rename_i key c hc
    rw [hc]
    simp

end

/-! ### The HTTP/1.1 engine -/

namespace Http1

variable {dial : Dial} {engine : Http1Engine} {req : Request} {key : PoolKey} {c : Ssl} {reused : Bool}

/-- The exits of `request` with a connection: it is closed, or the response was read from it. -/
theorem request_exits
    (h : ensureConnection dial engine.settings engine.connection req = .ok ((key, c), reused)) :
    (request dial engine req).2 = { engine with connection := none } ∨
    ∃ custom ssl, customHeaders req.headers = some custom ∧
      writeAll (requestText req custom) c = some ssl ∧
      request dial engine req =
        ({ (readResponse req ssl.source).1 with connectionReused := reused },
          { engine with
            connection := (readResponse req ssl.source).2.map fun source =>
              (key, { ssl with source }) }) := by
  -- every way out in front of the response closes the connection
  unfold request
  rw [h]
  dsimp only
  by_cases hcrlf : (hasCrlf req.host || hasCrlf req.connectHost || hasCrlf req.method ||
    hasCrlf req.path) = true
  · rw [if_pos hcrlf]
    exact .inl rfl
  · rw [if_neg hcrlf]
    rcases hcustom : customHeaders req.headers with - | custom
    · exact .inl rfl
    · dsimp only
      rcases hwrite : writeAll (requestText req custom) c with - | ssl
      · exact .inl rfl
      · exact .inr ⟨custom, ssl, rfl, hwrite, rfl⟩

/-- The engine when no connection could be opened. -/
theorem request_unopened {failure : DialFailure}
    (h : ensureConnection dial engine.settings engine.connection req = .error failure) :
    (request dial engine req).2 = { engine with connection := none } := by
  unfold request
  rw [h]

theorem settings_request (dial : Dial) (engine : Http1Engine) (req : Request) :
    (request dial engine req).2.settings = engine.settings := by
  rcases hensure : ensureConnection dial engine.settings engine.connection req with
    failure | ⟨⟨key', c⟩, reused⟩
  · rw [request_unopened hensure]
  · rcases request_exits hensure with hclosed | ⟨custom, ssl', -, -, hrequest⟩
    · rw [hclosed]
    · rw [hrequest]

end Http1

/-! ### The HTTP/2 engine -/

namespace Http2

variable {dial : Dial} {outside : Exchange} {engine : Http2Engine} {req : Request}

/-- What the request does about a connection: a line break in it is found before one is looked for. -/
def use (dial : Dial) (engine : Http2Engine) (req : Request) : Use :=
  if hasCrlf req.host || hasCrlf req.connectHost || hasCrlf req.method || hasCrlf req.path then
    .untouched
  else useOf dial engine.settings engine.connection req

theorem use_of_ne_untouched (h : use dial engine req ≠ .untouched) :
    ¬ (hasCrlf req.host || hasCrlf req.connectHost || hasCrlf req.method || hasCrlf req.path) = true ∧
      use dial engine req = useOf dial engine.settings engine.connection req := by
  unfold use at h ⊢
  split_ifs at h ⊢ with hcrlf
  · exact absurd rfl h
  · exact ⟨hcrlf, rfl⟩

theorem ok_of_exchange {reused : Bool} (h : (exchange req outside reused).2 = true) :
    (exchange req outside reused).1.errCode = .ok := by
  unfold exchange at h ⊢
  dsimp only at h ⊢
  unfold keepsConnection at h
  simp only [Bool.and_eq_true, decide_eq_true_eq] at h
  exact h.1.1.1.1.1.1

/-- The engine after a request that looked for a connection: without one, or with the one it got, when it
returned OK. -/
theorem request_exits (dial : Dial) (outside : Exchange) (engine : Http2Engine) (req : Request)
    (hcrlf : ¬ (hasCrlf req.host || hasCrlf req.connectHost || hasCrlf req.method ||
      hasCrlf req.path) = true) :
    (request dial outside engine req).2 = { engine with connection := none } ∨
    ∃ connection reused,
      ensureConnection dial engine.settings engine.connection req = .ok (connection, reused) ∧
      (request dial outside engine req).1.errCode = .ok ∧
      (request dial outside engine req).2 = { engine with connection := some connection } := by
  -- a new connection whose settings fail, no ALPN, no headers, no stream: each closes it
  unfold request
  rw [if_neg hcrlf]
  dsimp only
  rcases hensure : ensureConnection dial engine.settings engine.connection req with
    failure | ⟨connection, reused⟩
  · exact .inl rfl
  · dsimp only
    by_cases hsettings : reused = false ∧ outside.settings ≠ .ok
    · rw [if_pos hsettings]
      exact .inl rfl
    · rw [if_neg hsettings]
      by_cases halpn : outside.alpn ≠ ByteString.ascii "h2"
      · rw [if_pos halpn]
        exact .inl rfl
      · rw [if_neg halpn]
        rcases customHeaders req.headers with - | custom
        · exact .inl rfl
        · dsimp only
          by_cases hstream : outside.streamId < 0
          · rw [if_pos hstream]
            exact .inl rfl
          · rw [if_neg hstream]
            rcases hkeep : (exchange req outside reused).2 with - | -
            · exact .inl rfl
            · exact .inr ⟨connection, reused, rfl, ok_of_exchange hkeep, rfl⟩

/-- The engine when no connection could be opened. -/
theorem request_unopened (h : use dial engine req = .unopened) :
    (request dial outside engine req).2 = { engine with connection := none } := by
  obtain ⟨hcrlf, huse⟩ := use_of_ne_untouched (h ▸ Use.noConfusion : use dial engine req ≠ .untouched)
  rw [huse] at h
  obtain ⟨failure, hfailure⟩ := useOf_unopened_iff.mp h
  unfold request
  rw [if_neg hcrlf]
  dsimp only
  rw [hfailure]

theorem settings_request (dial : Dial) (outside : Exchange) (engine : Http2Engine) (req : Request) :
    (request dial outside engine req).2.settings = engine.settings := by
  by_cases hcrlf : (hasCrlf req.host || hasCrlf req.connectHost || hasCrlf req.method ||
    hasCrlf req.path) = true
  · unfold request
    rw [if_pos hcrlf]
  · rcases request_exits dial outside engine req hcrlf with
      hclosed | ⟨connection, reused, -, -, hrequest⟩
    · rw [hclosed]
    · rw [hrequest]

end Http2

/-! ### The life of a connection -/

/-- What is known of a connection: the key it was opened for, the migrations before that, and how the
requests on it ended. -/
structure Life where
  key : PoolKey
  openedAfter : ℕ
  results : List Result := []
  deriving DecidableEq, Repr

/-- An engine in use, with the life of the connection it pools and the migrations so far. -/
structure Watched (ε : Type) where
  engine : ε
  life : Option Life := none
  migrations : ℕ := 0

/-- The calls of an engine. -/
inductive EngineCall (ω : Type)
  | request (outside : ω) (req : Request)
  | migrateConnection

/-- A connection opened with this key serves a request with these settings: the host, the address, the port, the
certificates, the network and the check of them are those that the request needs. -/
structure OpenedFor (key : PoolKey) (settings : TlsSettings) (req : Request) : Prop where
  host : key.host = req.host
  endpoint : key.endpoint = if req.connectHost = [] then req.host else req.connectHost
  port : key.port = req.port
  caCertPem : key.caCertPem = if req.caCertPem = [] then settings.caCertPem else req.caCertPem
  networkEpoch : key.networkEpoch = req.networkEpoch
  allowInsecure : key.allowInsecure = settings.allowInsecure

namespace PoolingEngine

variable {ε ω : Type} (P : PoolingEngine ε ω)

/-- The connection a request gets: the pooled one, or the one it opens. -/
def lifeFor (s : Watched ε) (outside : ω) (req : Request) : Option Life :=
  match P.use outside s.engine req with
  | .reused => s.life
  | .opened key => some { key, openedAfter := s.migrations }
  | _ => none

/-- The engine after a call.  What it still pools is the connection the request got. -/
def apply (s : Watched ε) : EngineCall ω → Watched ε
  | .request outside req =>
    let reply := P.request outside s.engine req
    let life :=
      match P.use outside s.engine req with
      | .untouched => s.life
      | _ => (P.lifeFor s outside req).map fun life =>
          { life with results := life.results ++ [reply.1] }
    { s with
      engine := reply.2
      life := if (P.pooled reply.2).isSome then life else none }
  | .migrateConnection =>
    let engine := P.migrateConnection s.engine
    { engine
      life := if (P.pooled engine).isSome then s.life else none
      migrations := s.migrations + 1 }

/-- The steps of an engine. -/
def Step (s : Watched ε) (call : EngineCall ω) (s' : Watched ε) : Prop := s' = P.apply s call

/-- The pooled connection has a life, and it is the one its key tells. -/
structure Inv (settings : TlsSettings) (s : Watched ε) : Prop where
  settings : P.settings s.engine = settings
  life : ∀ key, P.pooled s.engine = some key → ∃ life, s.life = some life ∧ life.key = key ∧
    life.openedAfter = s.migrations ∧ ∀ result ∈ life.results, result = .ok

variable {P} {settings : TlsSettings} {s : Watched ε} {outside : ω} {req : Request}

/-- The connection a request gets. -/
theorem Inv.lifeFor (hi : P.Inv settings s) (huse : (P.use outside s.engine req).IsConnected) :
    ∃ life, P.lifeFor s outside req = some life ∧ life.key = poolKey settings req ∧
      life.openedAfter = s.migrations ∧ ∀ result ∈ life.results, result = .ok := by
  unfold PoolingEngine.lifeFor
  rcases hu : P.use outside s.engine req with - | - | - | key
  · rw [hu] at huse
    exact huse.elim
  · rw [hu] at huse
    exact huse.elim
  · obtain ⟨life, hlife, hkey, hopened, hresults⟩ := hi.life _ (P.pooled_of_reused hu)
    rw [hi.settings] at hkey
    exact ⟨life, hlife, hkey, hopened, hresults⟩
  · have hkey := P.key_of_opened hu
    rw [hi.settings] at hkey
    exact ⟨_, rfl, hkey, rfl, fun result h => by cases h⟩

/-- The life of a connection that is still pooled after a request on it. -/
theorem Inv.life_of_connected (hi : P.Inv settings s)
    (huse : (P.use outside s.engine req).IsConnected) {key : PoolKey}
    (hkey : P.pooled (P.request outside s.engine req).2 = some key) :
    ∃ life, (P.lifeFor s outside req).map (fun life =>
        { life with results := life.results ++ [(P.request outside s.engine req).1] }) = some life ∧
      life.key = key ∧ life.openedAfter = s.migrations ∧ ∀ result ∈ life.results, result = .ok := by
  obtain ⟨hok, rfl⟩ := P.kept huse.ne_untouched hkey
  obtain ⟨life, hlife, hlifeKey, hopened, hresults⟩ := hi.lifeFor huse
  rw [hlife, hi.settings, hok]
  refine ⟨_, rfl, hlifeKey, hopened, fun result hresult => ?_⟩
  rcases List.mem_append.mp hresult with hresult | hresult
  · exact hresults result hresult
  · exact List.mem_singleton.mp hresult

/-- What one call keeps. -/
theorem Inv.apply (hi : P.Inv settings s) (call : EngineCall ω) : P.Inv settings (P.apply s call) := by
  cases call with
  | migrateConnection =>
    refine ⟨(P.settings_migrate s.engine).trans hi.settings, fun key hkey => ?_⟩
    rw [show P.pooled (P.apply s .migrateConnection).engine = none from P.pooled_migrate s.engine] at hkey
    cases hkey
  | request outside req =>
    refine ⟨(P.settings_request outside s.engine req).trans hi.settings, fun key hkey => ?_⟩
    have hpooled : P.pooled (P.request outside s.engine req).2 = some key := hkey
    unfold PoolingEngine.apply
    dsimp only
    rw [hpooled, Option.isSome_some, if_pos rfl]
    rcases hu : P.use outside s.engine req with - | - | - | opened
    · rw [P.pooled_of_untouched hu] at hpooled
      exact hi.life key hpooled
    · rw [P.pooled_of_unopened hu] at hpooled
      cases hpooled
    · exact hi.life_of_connected (by rw [hu]; trivial) hpooled
    · exact hi.life_of_connected (by rw [hu]; trivial) hpooled

/-- A request only ever gets a connection opened for what it needs, after the last migration, on which
every earlier request returned OK; and one that fails with it leaves none behind. -/
def Reuses (P : PoolingEngine ε ω) : Prop :=
  ∀ engine calls s, P.pooled engine = none → Run P.Step { engine } calls s →
    ∀ outside req, (P.use outside s.engine req).IsConnected →
      (∃ life, P.lifeFor s outside req = some life ∧ OpenedFor life.key (P.settings engine) req ∧
        life.openedAfter = s.migrations ∧ ∀ result ∈ life.results, result = .ok) ∧
      ((P.request outside s.engine req).1 ≠ .ok →
        P.pooled (P.request outside s.engine req).2 = none)

end PoolingEngine

end AsterNet
