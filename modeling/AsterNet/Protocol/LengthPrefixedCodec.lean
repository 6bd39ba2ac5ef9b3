import Mathlib.Algebra.Group.Nat.Defs
import AsterNet.Lib.ByteString
import AsterNet.Public.Asternet

/-!
# The length-prefixed codec (`protocol.cpp`)

`encode` and `decode` return the result code and what the output argument holds afterwards, so they take
what it held before.
-/

namespace AsterNet

/-- `LengthPrefixedCodec`. -/
structure LengthPrefixedCodec where
  maxMessageBytes : ℕ
  pos : 1 ≤ maxMessageBytes

namespace LengthPrefixedCodec

/-- The constructor. -/
def new (maxMessageBytes : ℕ) : LengthPrefixedCodec where
  maxMessageBytes := if maxMessageBytes = 0 then 1 else maxMessageBytes
  pos := by split_ifs <;> omega

/-- The four bytes of a length, the highest first. -/
def prefixOf (size : UInt32) : Bytes :=
  [(size >>> 24 &&& 0xff).toUInt8, (size >>> 16 &&& 0xff).toUInt8, (size >>> 8 &&& 0xff).toUInt8,
    (size &&& 0xff).toUInt8]

/-- The length that four bytes say. -/
def sizeOf (b₀ b₁ b₂ b₃ : UInt8) : UInt32 :=
  b₀.toUInt32 <<< 24 ||| b₁.toUInt32 <<< 16 ||| b₂.toUInt32 <<< 8 ||| b₃.toUInt32

/-- `LengthPrefixedCodec::encode`. -/
def encode (codec : LengthPrefixedCodec) (plain wire : Bytes) : Result × Bytes :=
  if codec.maxMessageBytes < plain.length ∨ 2 ^ 32 - 1 < plain.length then (.errBufferTooSmall, wire)
  else (.ok, prefixOf (UInt32.ofNat plain.length) ++ plain)

/-- `LengthPrefixedCodec::decode`; `none` is a null pointer. -/
def decode (codec : LengthPrefixedCodec) (wire : Option Bytes) (plain : Bytes) : Result × Bytes :=
  match wire with
  | some (b₀ :: b₁ :: b₂ :: b₃ :: rest) =>
    let size := sizeOf b₀ b₁ b₂ b₃
    if codec.maxMessageBytes < size.toNat ∨ 4 + rest.length ≠ 4 + size.toNat then
      (if codec.maxMessageBytes < size.toNat then .errBufferTooSmall else .errProtocol, plain)
    else (.ok, rest.take size.toNat)
  | _ => (.errProtocol, plain)

end LengthPrefixedCodec

end AsterNet
