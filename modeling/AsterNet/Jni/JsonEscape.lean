import AsterNet.Lib.ByteString

/-!
# Escaping a body for JSON (`json_escape` of `asternet_jni.cpp`)

The Android binding answers with a JSON text in which the body of the response is a string.  The index
`i` of the source is the front of the list: what is behind it is what the loop has still to see.
-/

namespace AsterNet

namespace Jni

open ByteString

/-- `kHex`. -/
def kHex : Bytes := ascii "0123456789abcdef"

/-- `\u00` and the two digits of a byte. -/
def hexEscape (ch : UInt8) : Bytes :=
  ascii "\\u00" ++ [kHex.getD (ch >>> 4).toNat 0, kHex.getD (ch &&& 0x0f).toNat 0]

/-- `(b & 0xc0) == 0x80`. -/
def isTail (b : UInt8) : Bool := b &&& 0xc0 == 0x80

/-- `second_ok` of a sequence of three bytes. -/
def secondOk3 (first second : UInt8) : Bool :=
  if first = 0xe0 then 0xa0 ≤ second && second ≤ 0xbf
  else if first = 0xed then 0x80 ≤ second && second ≤ 0x9f
  else isTail second

/-- `second_ok` of a sequence of four bytes. -/
def secondOk4 (first second : UInt8) : Bool :=
  if first = 0xf0 then 0x90 ≤ second && second ≤ 0xbf
  else if first = 0xf4 then 0x80 ≤ second && second ≤ 0x8f
  else isTail second

/-- `utf8_length` at the front of `data`: the length of the UTF-8 sequence that begins there, or `0`. -/
def utf8Length (data : Bytes) : ℕ :=
  let first := data.getD 0 0
  if 0xc2 ≤ first ∧ first ≤ 0xdf then
    if 1 < data.length ∧ isTail (data.getD 1 0) = true then 2 else 0
  else if 0xe0 ≤ first ∧ first ≤ 0xef ∧ 2 < data.length then
    if secondOk3 first (data.getD 1 0) = true ∧ isTail (data.getD 2 0) = true then 3 else 0
  else if 0xf0 ≤ first ∧ first ≤ 0xf4 ∧ 3 < data.length then
    if secondOk4 first (data.getD 1 0) = true ∧ isTail (data.getD 2 0) = true ∧
      isTail (data.getD 3 0) = true then 4 else 0
  else if first < 0x80 then 1 else 0

/-- The bytes that have an escape of their own. -/
def shortEscape (ch : UInt8) : Option Bytes :=
  if ch = 34 then some (ascii "\\\"")
  else if ch = 92 then some (ascii "\\\\")
  else if ch = 8 then some (ascii "\\b")
  else if ch = 12 then some (ascii "\\f")
  else if ch = 10 then some (ascii "\\n")
  else if ch = 13 then some (ascii "\\r")
  else if ch = 9 then some (ascii "\\t")
  else none

/-- `json_escape`. -/
def jsonEscape : Bytes → Bytes
  | [] => []
  | ch :: rest =>
    match shortEscape ch with
    | some escaped => escaped ++ jsonEscape rest
    | none =>
      if ch < 0x20 then hexEscape ch ++ jsonEscape rest
      else if 0x80 ≤ ch then
        let length := utf8Length (ch :: rest)
        if 0 < length then (ch :: rest).take length ++ jsonEscape (rest.drop (length - 1))
        else hexEscape ch ++ jsonEscape rest
      else ch :: jsonEscape rest
termination_by data => data.length
decreasing_by
  all_goals
    simp only [List.length_cons, List.length_drop]
    omega

end Jni

end AsterNet
