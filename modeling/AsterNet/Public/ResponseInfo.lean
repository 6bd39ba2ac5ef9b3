import AsterNet.Public.Asternet

/-!
# What a caller is told of a response (`asternet_response_info_t`)
-/

namespace AsterNet

/-- `asternet_response_info_t`, with the values `{}` gives it. -/
structure ResponseInfo where
  result : Result := .ok
  httpStatus : ℤ := 0
  protocol : Protocol := .unknown
  degraded : ℤ := 0
  bodySize : ℕ := 0
  bodyCopied : ℕ := 0
  dnsMs : ℤ := 0
  connectMs : ℤ := 0
  tlsMs : ℤ := 0
  ttfbMs : ℤ := 0
  totalMs : ℤ := 0
  deriving DecidableEq, Repr

end AsterNet
