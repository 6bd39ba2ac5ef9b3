import Mathlib.Data.Nat.Notation
import Mathlib.Data.Int.Notation

/-!
# The public enumerations of `asternet.h`

Result codes, protocols, protocol policies and network types.  A policy arrives through the C ABI as
an `int`, so values outside the enumeration are representable (`ProtocolPolicy.other`).
-/

namespace AsterNet

/-- `asternet_result_t`. -/
inductive Result
  | ok
  | errAbiVersion
  | errInvalidArgument
  | errNotInitialized
  | errOutOfMemory
  | errTimeout
  | errDns
  | errConnect
  | errTls
  | errProtocol
  | errCanceled
  | errDegraded
  | errNetworkChanged
  | errUnsupported
  | errBufferTooSmall
  | errInternal
  deriving DecidableEq, Repr, Inhabited

/-- `asternet_protocol_t`. -/
inductive Protocol
  | unknown
  | http11
  | http2
  | http3
  deriving DecidableEq, Repr, Inhabited

/-- `asternet_protocol_policy_t`; `other` is an `int` outside the enumeration. -/
inductive ProtocolPolicy
  | auto
  | http11Only
  | http2Only
  | http3Only
  | preferHttp3
  | preferHttp2
  | other (value : {value : ℤ // value < 0 ∨ 5 < value})
  deriving DecidableEq, Repr

/-- `asternet_network_t`. -/
inductive Network
  | unknown
  | none
  | wifi
  | cellular
  | ethernet
  deriving DecidableEq, Repr

end AsterNet
