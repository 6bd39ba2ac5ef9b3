import AsterNet.Dns.Resolver
import AsterNet.Lib.Transition

/-!
# Runs of the resolver

A `Session` is a resolver with the resolutions it has made so far and the latest clock reading.  A
step is one call (`Op`); the clock never goes back.
-/

namespace AsterNet.Dns

/-- One call on the resolver, with what it takes from outside. -/
inductive Op
  | resolve (env : ResolveEnv) (host : Bytes) (networkEpoch : ℕ) (timeoutMs : ℤ)
  | invalidate (host : Bytes)
  | report (nowMs : ℤ) (order : ℕ) (host ip : Bytes) (networkEpoch : ℕ) (success : Bool) (rttMs : ℤ)
  | qualityChange (snapshot : QualitySnapshot)
  | networkChange (networkEpoch : ℕ)
  | setHttpdnsLookup (httpdnsLookup : Bool)
  | setBackupIps (host : Bytes) (addresses : List IpResult)

/-- The clock readings of a call, in order. -/
def Op.readings : Op → List ℤ
  | .resolve env .. => [env.startedMs, env.cacheNowMs, env.httpdns.nowMs, env.localdns.nowMs,
      env.writeNowMs, env.finishedMs]
  | .report nowMs .. => [nowMs]
  | _ => []

/-- A resolver, its resolutions so far (newest first) and the latest clock reading. -/
structure Session where
  st : State
  history : List Resolution := []
  clockMs : ℤ := 0

namespace Session

variable (inet : Inet)

/-- A resolver as constructed. -/
def init (config : Config) (httpdnsLookup : Bool) (clockMs : ℤ) : Session :=
  { st := { config, httpdnsLookup }, clockMs }

/-- The state after a call. -/
def next (s : Session) : Op → State
  | .resolve env host networkEpoch timeoutMs =>
    (resolveWithMetadata inet env host networkEpoch timeoutMs s.st).2
  | .invalidate host => Dns.invalidate host s.st
  | .report nowMs order host ip networkEpoch success rttMs =>
    reportConnectionResult nowMs order host ip networkEpoch success rttMs s.st
  | .qualityChange snapshot => onQualityChange snapshot s.st
  | .networkChange networkEpoch => onNetworkChange networkEpoch s.st
  | .setHttpdnsLookup httpdnsLookup => Dns.setHttpdnsLookup httpdnsLookup s.st
  | .setBackupIps host addresses => Dns.setBackupIps inet host addresses s.st

/-- The session after a call. -/
def apply (s : Session) (op : Op) : Session where
  st := s.next inet op
  history := match op with
    | .resolve env host networkEpoch timeoutMs =>
      (resolveWithMetadata inet env host networkEpoch timeoutMs s.st).1 :: s.history
    | _ => s.history
  clockMs := op.readings.getLastD s.clockMs

/-- A call whose clock readings go on from the latest one. -/
def Step (s : Session) (op : Op) (s' : Session) : Prop :=
  (s.clockMs :: op.readings).IsChain (· ≤ ·) ∧ s' = s.apply inet op

/-- Every session some run reaches from a constructed resolver. -/
def Reachable (config : Config) (s : Session) : Prop :=
  ∃ httpdnsLookup clockMs ops,
    Transition.Run (Step inet) (init config httpdnsLookup clockMs) ops s

end Session

end AsterNet.Dns
