import AsterNet.Engine.Engine
import Mathlib.Algebra.Group.Nat.Defs

/-!
# The C interface (`abi.cpp`)

The part of `asternet_client_request_sync` before the client is called: the checks on the caller's
request, and the `engine::Request` built from it.  C strings are byte strings without NUL; a null
pointer is `none`.
-/

namespace AsterNet

namespace Abi

open ByteString

/-- A C string. -/
structure CString where
  bytes : Bytes
  no_nul : (0 : UInt8) ∉ bytes
  deriving DecidableEq, Repr

/-- `asternet_header_t`. -/
structure AbiHeader where
  name : Option CString
  value : Option CString
  deriving DecidableEq, Repr

/-- `asternet_request_t`, without `protocol_policy` and the flag the core ignores. -/
structure AbiRequest where
  host : Option CString
  port : UInt16
  method : Option CString
  path : Option CString
  headers : Option (List AbiHeader) := none
  headerCount : ℕ := 0
  body : Option Bytes := none
  bodyLen : ℕ := 0
  timeoutMs : ℤ := 0
  idempotent : Bool := false
  deriving DecidableEq, Repr

/-- The part of `asternet_client_config_t` a request reads. -/
structure AbiConfig where
  defaultTimeoutMs : ℤ := 0
  maxResponseBodyBytes : Int32 := 0
  caCertPem : Bytes := []
  deriving DecidableEq, Repr

/-- `default_timeout_ms`. -/
def defaultTimeoutMs (config : AbiConfig) (requestTimeoutMs : ℤ) : ℤ :=
  if 0 < requestTimeoutMs then requestTimeoutMs
  else if 0 < config.defaultTimeoutMs then config.defaultTimeoutMs
  else 15000

/-- The limit on a response body: the `int` of the configuration when it is positive, else the default
of `engine::Request`. -/
def bodyLimit (configuredMaxBody : Int32) : UInt64 :=
  if 0 < configuredMaxBody then UInt64.ofNat configuredMaxBody.toInt.toNat else 16 * 1024 * 1024

/-- `is_idempotent_method`. -/
def isIdempotentMethod (method : Bytes) : Bool :=
  method = ascii "GET" || method = ascii "HEAD" || method = ascii "OPTIONS"

/-- `has_idempotency_key`. -/
def hasIdempotencyKey (headers : List Header) : Bool :=
  headers.any fun h => lower h.name = ascii "idempotency-key" && h.value.any fun c => !isSpace c

/-- `contains_crlf`. -/
def containsCrlf (value : Bytes) : Bool := value.any fun c => c == 13 || c == 10

/-- `valid_token` and `valid_header_name`, which are the same test. -/
def validToken (value : Bytes) : Bool :=
  value ≠ [] && value.all fun c => isAlnum c || (ascii "!#$%&'*+-.^_`|~").contains c

/-- No blank, control or DEL. -/
def noControls (value : Bytes) : Bool := value.all fun c => !(c ≤ 0x20 || c == 0x7f)

/-- `valid_path`. -/
def validPath (value : Bytes) : Bool := value.head? = some 47 && noControls value

/-- `valid_host`. -/
def validHost (value : Bytes) : Bool := value ≠ [] && noControls value

/-- `protected_header`. -/
def protectedHeader (name : Bytes) : Bool :=
  [ascii "host", ascii "content-length", ascii "transfer-encoding", ascii "connection"].contains
    (lower name)

/-- One header of the caller's list. -/
def acceptHeader (header : AbiHeader) : Option Header := do
  let name ← header.name
  let value ← header.value
  if validToken name.bytes && !containsCrlf name.bytes && !containsCrlf value.bytes &&
      !protectedHeader name.bytes then
    some ⟨name.bytes, value.bytes⟩
  else none

/-- The headers of the request, all of them accepted. -/
def acceptHeaders (request : AbiRequest) : Option (List Header) :=
  match request.headers with
  | none => if 0 < request.headerCount then none else some []
  | some headers => (headers.take request.headerCount).mapM acceptHeader

/-- The body of the request. -/
def acceptBody (request : AbiRequest) : Option Bytes :=
  match request.body with
  | none => if 0 < request.bodyLen then none else some []
  | some body => some (body.take request.bodyLen)

/-- `internal_request`; `none` stands for `ASTERNET_ERR_INVALID_ARGUMENT`. -/
def internalRequest (config : AbiConfig) (request : AbiRequest) : Option Request := do
  let host ← request.host
  let method ← request.method
  let path ← request.path
  let headers ← acceptHeaders request
  let body ← acceptBody request
  if validHost host.bytes && validToken method.bytes && validPath path.bytes &&
      request.port ≠ 0 && 0 ≤ request.timeoutMs then
    some
      { host := host.bytes, port := request.port, method := method.bytes, path := path.bytes
        body := body, headers := headers
        timeoutMs := defaultTimeoutMs config request.timeoutMs
        idempotent := request.idempotent || (body.isEmpty && isIdempotentMethod method.bytes)
        retrySafe := (body.isEmpty && isIdempotentMethod method.bytes) ||
          (request.idempotent && hasIdempotencyKey headers)
        caCertPem := config.caCertPem
        maxResponseBodyBytes := bodyLimit config.maxResponseBodyBytes }
  else none

/-- The limit is an `int`. -/
theorem bodyLimit_le (configuredMaxBody : Int32) : (bodyLimit configuredMaxBody).toNat < 2 ^ 31 := by
  unfold bodyLimit
  split_ifs with h
  · have hlt : configuredMaxBody.toInt < 2 ^ 31 := Int32.toInt_lt configuredMaxBody
    rw [UInt64.toNat_ofNat', Nat.mod_eq_of_lt (by omega)]
    omega
  · decide

end Abi

end AsterNet
