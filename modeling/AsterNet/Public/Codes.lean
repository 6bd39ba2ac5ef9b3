import AsterNet.Sdt.Quality

/-!
# The numbers of the enumerations (`asternet.h`, `quality_prober.h`)
-/

namespace AsterNet

/-- `asternet_result_t`. -/
def Result.code : Result → ℤ
  | .ok => 0
  | .errAbiVersion => -1
  | .errInvalidArgument => -2
  | .errNotInitialized => -3
  | .errOutOfMemory => -4
  | .errTimeout => -5
  | .errDns => -6
  | .errConnect => -7
  | .errTls => -8
  | .errProtocol => -9
  | .errCanceled => -10
  | .errDegraded => -11
  | .errNetworkChanged => -12
  | .errUnsupported => -13
  | .errBufferTooSmall => -14
  | .errInternal => -100

/-- `asternet_network_t`. -/
def Network.code : Network → ℤ
  | .unknown => 0
  | .none => 1
  | .wifi => 2
  | .cellular => 3
  | .ethernet => 4

/-- `sdt::NetworkQuality`. -/
def NetworkQuality.code : NetworkQuality → ℤ
  | .unknown => 0
  | .good => 1
  | .degraded => 2
  | .bad => 3
  | .offline => 4

end AsterNet
