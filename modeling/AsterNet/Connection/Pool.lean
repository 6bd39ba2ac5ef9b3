import AsterNet.Lib.ByteString
import AsterNet.Public.Asternet

/-!
# Origins and leases of the connection pool (`connection_pool.h`)
-/

namespace AsterNet

/-- `connection::Origin`. -/
structure Origin where
  host : Bytes
  port : UInt16 := 443
  protocol : Protocol := .unknown
  networkEpoch : ℕ := 0
  deriving DecidableEq, Repr

/-- `connection::ConnectionLease`. -/
structure ConnectionLease where
  origin : Origin
  id : ℕ := 0
  reused : Bool := false
  valid : Bool := false
  deriving DecidableEq, Repr

end AsterNet
