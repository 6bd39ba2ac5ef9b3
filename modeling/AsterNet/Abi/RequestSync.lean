import AsterNet.Abi.Abi
import AsterNet.Client.Client
import AsterNet.Public.ResponseInfo

/-!
# A request across the C interface (`abi.cpp`)

`asternet_client_request_sync`: the request is checked and handed to the client, and the response is
told in `out_info` and copied to `out_body`.  A handle that is no live client is `none`.  `out_info` is
there; a null one changes nothing but that it is not filled.  Memory does not run out.
-/

namespace AsterNet

namespace Abi

/-- `out_body` and `out_body_capacity`. -/
structure OutBody where
  null : Bool
  capacity : ℕ
  deriving DecidableEq, Repr

/-- What the call returns, what it leaves in `out_info`, and what it copies to `out_body`. -/
structure SyncResult where
  result : Result
  info : ResponseInfo
  copied : Bytes := []
  deriving DecidableEq, Repr

/-- `reset_response_info`. -/
def resetResponseInfo : ResponseInfo where
  result := .errInternal
  protocol := .unknown
  dnsMs := -1
  connectMs := -1
  tlsMs := -1
  ttfbMs := -1
  totalMs := -1

/-- `fill_response_info`. -/
def fillResponseInfo (response : Response) (result : Result) (info : ResponseInfo) : ResponseInfo :=
  { info with
    result
    httpStatus := response.httpStatus
    protocol := response.protocol
    degraded := if response.degraded then 1 else 0
    bodySize := response.body.length
    dnsMs := response.dnsMs
    connectMs := response.connectMs
    tlsMs := response.tlsMs
    ttfbMs := response.ttfbMs
    totalMs := response.totalMs }

/-- A request that is not accepted. -/
def invalidArgument : SyncResult where
  result := .errInvalidArgument
  info := { resetResponseInfo with result := .errInvalidArgument }

/-- The response in the call's hands: of a failure the engine's protocol is kept. -/
def syncResponse (reply : RequestResult) : Response :=
  { reply.response with
    protocol := if reply.result = .ok then reply.actualProto else reply.response.protocol
    degraded := reply.degraded }

/-- The end of the call, after the client's request. -/
def handOver (out : OutBody) (reply : RequestResult) : SyncResult :=
  let response := syncResponse reply
  let info := fillResponseInfo response reply.result resetResponseInfo
  if reply.result ≠ .ok then { result := reply.result, info }
  else if (response.body ≠ [] ∧ out.null = true) ∨ out.capacity < response.body.length then
    { result := .errBufferTooSmall, info := { info with result := .errBufferTooSmall } }
  else
    { result := .ok
      info := { info with bodyCopied := response.body.length }
      copied := response.body }

/-- `asternet_client_request_sync`. -/
def requestSync {σ : Type} (env : ClientEnv σ) (client : Option (AbiConfig × ClientConfig))
    (policy : ProtocolPolicy) (request : AbiRequest) (out : OutBody) : Prog σ SyncResult :=
  match client with
  | none => pure invalidArgument
  | some (config, clientConfig) =>
    match internalRequest config request with
    | none => pure invalidArgument
    | some internal =>
      handOver out <$> Client.requestWithPolicy env clientConfig internal policy {}

end Abi

end AsterNet
