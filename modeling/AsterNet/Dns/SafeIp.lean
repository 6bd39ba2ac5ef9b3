import AsterNet.Lib.ByteString
import AsterNet.Lib.Cidr

/-!
# Numeric addresses and the address filter of the resolver

`inet_pton` and `inet_ntop` are a parameter (`Inet`): only that they convert faithfully between text
and bytes is used of them.  `isNumericIp` and `isSafeIp` are the filter of `dns_resolver.cpp`; where
the source returns a `bool` and sets `*ipv6` on success, they return `some ipv6` or `none`.
-/

namespace AsterNet

open Cidr

/-- `inet_pton` and `inet_ntop` for both address families.  A `pton` reads a C string, a `ntop`
writes one. -/
structure Inet where
  pton4 : Bytes → Option (Addr 4)
  pton6 : Bytes → Option (Addr 16)
  ntop4 : Addr 4 → Bytes
  ntop6 : Addr 16 → Bytes
  pton4_ntop4 : ∀ a, pton4 (ntop4 a) = some a
  pton6_ntop6 : ∀ a, pton6 (ntop6 a) = some a
  /-- No text is an address of both families. -/
  pton4_ntop6 : ∀ a, pton4 (ntop6 a) = none
  nul_notMem_ntop4 : ∀ a, 0 ∉ ntop4 a
  nul_notMem_ntop6 : ∀ a, 0 ∉ ntop6 a

namespace Dns

variable (inet : Inet)

/-- `is_numeric_ip`; the value is `*ipv6`. -/
def isNumericIp (value : Bytes) : Option Bool :=
  if (inet.pton4 (ByteString.cStr value)).isSome then some false
  else if (inet.pton6 (ByteString.cStr value)).isSome then some true
  else none

/-- `is_safe_ipv4`. -/
def isSafeIpv4 (v4 : Addr 4) (allowPrivateAddresses : Bool) : Bool :=
  if allowPrivateAddresses then true
  else
    let a := v4 0
    let b := v4 1
    a != 0 && a != 10 && a != 127 && a < 224
      && !(a == 100 && b ≥ 64 && b ≤ 127)
      && !(a == 169 && b == 254)
      && !(a == 172 && b ≥ 16 && b ≤ 31)
      && !(a == 192 && b == 168)
      && !(a == 198 && (b == 18 || b == 19))

/-- The four octets from `offset` on. -/
def embedded4 (v6 : Addr 16) (offset : Fin 13) : Addr 4 :=
  fun i => v6 ⟨offset + i, by omega⟩

/-- `check_embedded_ipv4`. -/
def checkEmbeddedIpv4 (v6 : Addr 16) (offset : Fin 13) (allowPrivateAddresses : Bool) : Bool :=
  isSafeIpv4 (embedded4 v6 offset) allowPrivateAddresses

/-- `IN6_IS_ADDR_V4MAPPED`. -/
def in6IsAddrV4Mapped (v6 : Addr 16) : Bool :=
  v6 0 == 0 && v6 1 == 0 && v6 2 == 0 && v6 3 == 0 && v6 4 == 0 && v6 5 == 0 && v6 6 == 0
    && v6 7 == 0 && v6 8 == 0 && v6 9 == 0 && v6 10 == 0xff && v6 11 == 0xff

/-- The IPv6 cascade of `is_safe_ip`. -/
def isSafeIpv6 (v6 : Addr 16) (allowPrivateAddresses : Bool) : Bool :=
  let ipv4Compatible := v6 0 == 0 && v6 1 == 0 && v6 2 == 0 && v6 3 == 0 && v6 4 == 0 && v6 5 == 0
    && v6 6 == 0 && v6 7 == 0 && v6 8 == 0 && v6 9 == 0 && v6 10 == 0 && v6 11 == 0
  if in6IsAddrV4Mapped v6 then checkEmbeddedIpv4 v6 12 allowPrivateAddresses
  else if ipv4Compatible && !(v6 12 == 0 && v6 13 == 0 && v6 14 == 0 && (v6 15 == 0 || v6 15 == 1)) then
    checkEmbeddedIpv4 v6 12 allowPrivateAddresses
  -- NAT64, the well-known prefix
  else if v6 0 == 0 && v6 1 == 0x64 && v6 2 == 0xff && v6 3 == 0x9b && v6 4 == 0 && v6 5 == 0
      && v6 6 == 0 && v6 7 == 0 && v6 8 == 0 && v6 9 == 0 && v6 10 == 0 && v6 11 == 0 then
    checkEmbeddedIpv4 v6 12 allowPrivateAddresses
  -- NAT64, the local-use prefix
  else if !allowPrivateAddresses && v6 0 == 0 && v6 1 == 0x64 && v6 2 == 0xff && v6 3 == 0x9b
      && v6 4 == 0 && v6 5 == 1 then
    false
  -- IPv4-translated
  else if v6 0 == 0 && v6 1 == 0 && v6 2 == 0 && v6 3 == 0 && v6 4 == 0 && v6 5 == 0 && v6 6 == 0
      && v6 7 == 0 && v6 8 == 0xff && v6 9 == 0xff && v6 10 == 0 && v6 11 == 0 then
    checkEmbeddedIpv4 v6 12 allowPrivateAddresses
  -- 6to4
  else if v6 0 == 0x20 && v6 1 == 0x02 then checkEmbeddedIpv4 v6 2 allowPrivateAddresses
  else if allowPrivateAddresses then true
  else
    let kLoopback : Addr 16 := ![0, 0, 0, 0, 0, 0, 0, 0, 0, 0, 0, 0, 0, 0, 0, 1]
    let unspecified := decide (∀ i, v6 i = 0)
    if unspecified || decide (∀ i, v6 i = kLoopback i) then false
    else if v6 0 &&& 0xfe == 0xfc || (v6 0 == 0xfe && v6 1 &&& 0xc0 == 0x80) || v6 0 == 0xff then
      false
    else true

/-- `is_safe_ip`; the value is `*ipv6`. -/
def isSafeIp (value : Bytes) (allowPrivateAddresses : Bool) : Option Bool :=
  match inet.pton4 (ByteString.cStr value) with
  | some v4 => if isSafeIpv4 v4 allowPrivateAddresses then some false else none
  | none =>
    match inet.pton6 (ByteString.cStr value) with
    | some v6 => if isSafeIpv6 v6 allowPrivateAddresses then some true else none
    | none => none

end Dns

end AsterNet
