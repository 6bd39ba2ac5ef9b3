import AsterNet.Engine.Engine

/-!
# The gateway protocol (`protocol.cpp`)

`adapt` returns the result code and what the engine's request holds afterwards, so it takes what it held
before: the fields `adapt` does not set stay as they were.
-/

namespace AsterNet

open ByteString

/-- `GatewayRequest`, without the policy, which `adapt` does not read. -/
structure GatewayRequest where
  host : Bytes
  port : UInt16 := 443
  method : Bytes := ascii "POST"
  path : Bytes
  body : Bytes := []
  headers : List Header := []
  timeoutMs : ℤ := 15000
  idempotent : Bool := false
  deriving DecidableEq, Repr

namespace DefaultGatewayProtocol

/-- `s.find_first_of(bytes) != npos`. -/
def containsAny (bytes s : Bytes) : Bool := s.any bytes.contains

/-- The names a gateway request may not set. -/
def reservedHeader (lowerName : Bytes) : Bool :=
  [ascii "host", ascii "content-length", ascii "transfer-encoding", ascii "connection"].contains lowerName

/-- The checks of one header. -/
def acceptsHeader (header : Header) : Bool :=
  !(header.name.isEmpty || containsAny crlf header.name || containsAny crlf header.value) &&
    !reservedHeader (lower header.name)

/-- The checks of `adapt`. -/
def accepts (input : GatewayRequest) : Bool :=
  !(input.host.isEmpty || containsAny crlf input.host || input.port == 0 || input.method.isEmpty ||
      containsAny (crlf ++ [32]) input.method) &&
    !(input.path.isEmpty || input.path.head? != some 47) &&
    !(input.path.contains 13 || input.path.contains 10) &&
    input.headers.all acceptsHeader

/-- `DefaultGatewayProtocol::adapt`. -/
def adapt (input : GatewayRequest) (request : Request) : Result × Request :=
  if accepts input then
    (.ok, { request with
      host := input.host
      port := input.port
      method := input.method
      path := input.path
      body := input.body
      headers := input.headers
      idempotent := input.idempotent
      timeoutMs := if 0 < input.timeoutMs then input.timeoutMs else 15000 })
  else (.errInvalidArgument, request)

end DefaultGatewayProtocol

end AsterNet
