import AsterNet.Engine.Engine

/-!
# Pooled TLS connections

What the HTTP/1.1 and the HTTP/2 engine share: each keeps one TLS connection and reuses it for a
request that agrees with it in the same six fields (`ensure_connection`).
-/

namespace AsterNet

/-- The fields of a pooled connection that a request must agree with. -/
structure PoolKey where
  host : Bytes
  endpoint : Bytes
  port : UInt16
  caCertPem : Bytes
  networkEpoch : ℕ
  allowInsecure : Bool
  deriving DecidableEq, Repr

/-- Where opening a connection fails. -/
inductive DialFailure
  | connect
  | sslCtxNew
  | trust
  | alpn
  | sslNew
  | hostName
  | handshake
  | handshakeTimeout
  | session
  deriving DecidableEq, Repr

/-- The result code of `ensure_connection` for it. -/
def DialFailure.result : DialFailure → Result
  | .connect => .errConnect
  | .sslNew => .errOutOfMemory
  | .session => .errOutOfMemory
  | .handshakeTimeout => .errTimeout
  | _ => .errTls

theorem DialFailure.result_ne_ok (failure : DialFailure) : failure.result ≠ .ok := by
  cases failure <;> simp [result]

/-- The settings of an engine.  `allowInsecure` is `allow_insecure_tls_for_testing_` in a testing build
and `false` otherwise. -/
structure TlsSettings where
  allowInsecure : Bool := false
  caCertPem : Bytes := []
  deriving DecidableEq, Repr

/-- The key of the connection a request needs: `connect_host` is the endpoint when it is set, and the
bundle of the request comes before that of the engine. -/
def poolKey (settings : TlsSettings) (req : Request) : PoolKey where
  host := req.host
  endpoint := if req.connectHost = [] then req.host else req.connectHost
  port := req.port
  caCertPem := if req.caCertPem = [] then settings.caCertPem else req.caCertPem
  networkEpoch := req.networkEpoch
  allowInsecure := settings.allowInsecure

/-- `ensure_connection`: the connection, and whether it is a reused one.  `dial` is what opening a
connection with a key and a timeout does. -/
def ensureConnection {κ : Type} (dial : PoolKey → ℤ → Except DialFailure κ) (settings : TlsSettings)
    (connection : Option (PoolKey × κ)) (req : Request) :
    Except DialFailure ((PoolKey × κ) × Bool) :=
  let key := poolKey settings req
  match connection with
  | some (key', c) =>
    if key' = key then .ok ((key', c), true)
    else (dial key req.timeoutMs).map fun c => ((key, c), false)
  | none => (dial key req.timeoutMs).map fun c => ((key, c), false)

end AsterNet
