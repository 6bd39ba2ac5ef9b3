import AsterNet.Lib.ByteString
import AsterNet.Public.Asternet

/-!
# Requests, responses and engine types (`engine.h`)
-/

namespace AsterNet

/-- `EngineType`; `cronet` is the comparison baseline no engine implements. -/
inductive EngineType
  | http1
  | http2
  | http3
  | cronet
  deriving DecidableEq, Repr

/-- A request header. -/
structure Header where
  name : Bytes
  value : Bytes
  deriving DecidableEq, Repr

/-- `engine::Request`.  `connectHost` is the numeric endpoint the resolver chose; `host` stays
authoritative for the authority, the SNI and the certificate. -/
structure Request where
  host : Bytes
  connectHost : Bytes := []
  port : UInt16 := 443
  method : Bytes := ByteString.ascii "GET"
  path : Bytes := ByteString.ascii "/"
  body : Bytes := []
  headers : List Header := []
  timeoutMs : ℤ := 15000
  idempotent : Bool := false
  retrySafe : Bool := false
  allowInsecureTlsForTesting : Bool := false
  caCertPem : Bytes := []
  maxResponseBodyBytes : UInt64 := 16 * 1024 * 1024
  dnsMs : ℤ := -1
  networkEpoch : ℕ := 0
  deriving DecidableEq, Repr

/-- Two requests that say the same to the server. -/
structure Request.SameMessage (req base : Request) : Prop where
  host : req.host = base.host
  port : req.port = base.port
  method : req.method = base.method
  path : req.path = base.path
  headers : req.headers = base.headers
  body : req.body = base.body

/-- `engine::Response`. -/
structure Response where
  errCode : Result := .ok
  httpStatus : ℤ := 0
  protocol : Protocol := .unknown
  degraded : Bool := false
  body : Bytes := []
  dnsMs : ℤ := -1
  connectMs : ℤ := -1
  tlsMs : ℤ := -1
  ttfbMs : ℤ := -1
  totalMs : ℤ := -1
  connectionReused : Bool := false
  attempts : ℤ := 1
  failureStage : String := ""
  deriving DecidableEq, Repr

end AsterNet
