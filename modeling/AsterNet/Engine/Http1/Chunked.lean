import AsterNet.Lib.Incremental
import AsterNet.Lib.Numeral

/-!
# The chunked coding (`decode_chunked`)

The decoder of the HTTP/1.1 engine.  It runs over the whole body buffer each time more bytes have
arrived; `raw` here is the part of that buffer from `pos` on.
-/

namespace AsterNet

namespace Http1

open ByteString

/-- `ChunkParseResult`.  A complete message carries the decoded body and the bytes behind the message,
which the source neither returns nor keeps. -/
abbrev ChunkParseResult := Incremental.Parse Bytes

/-- The size a chunk line announces: `strtoull(size_line.c_str(), &end, 16)`, which must have read
something, not overflowed, and stopped at the end of the line or at an extension. -/
def chunkSize (sizeLine : Bytes) : Option ℕ :=
  let line := cStr sizeLine
  let number := strtoull 16 line
  let stopsWell := match (line.drop number.stop).head? with
    | none => true
    | some c => c = 59
  if number.stop = 0 ∨ number.range = true ∨ stopsWell = false then none else some number.value

/-- The lines after the zero chunk, up to and including the empty one; `none` while it has not
arrived. -/
def skipTrailers (raw : Bytes) : Option Bytes :=
  match _h : find crlf raw with
  | none => none
  | some 0 => some (raw.drop 2)
  | some (i + 1) => skipTrailers (raw.drop (i + 1 + 2))
termination_by raw.length
decreasing_by
  have := find_add_length_le _h
  simp only [crlf, List.length_cons, List.length_nil, List.length_drop] at *
  omega

/-- `decode_chunked` from the current position, with what was decoded before it. -/
def decodeChunked (raw out : Bytes) : ChunkParseResult :=
  match _h : find crlf raw with
  | none => .incomplete
  | some lineEnd =>
    match chunkSize (raw.take lineEnd) with
    | none => .invalid
    | some size =>
      let data := raw.drop (lineEnd + 2)
      if size = 0 then
        match skipTrailers data with
        | none => .incomplete
        | some rest => .complete out rest
      else if data.length < size then .incomplete
      else if data.length < size + 2 then .incomplete
      else if (data.drop size).take 2 ≠ crlf then .invalid
      else decodeChunked (data.drop (size + 2)) (out ++ data.take size)
termination_by raw.length
decreasing_by
  have := find_add_length_le _h
  simp only [crlf, List.length_cons, List.length_nil, List.length_drop] at *
  omega

/-! ### The cases of the decoder -/

variable {raw line data out : Bytes}

theorem skipTrailers_of_find_none (h : find crlf raw = none) : skipTrailers raw = none := by
  rw [skipTrailers]
  split <;> simp_all

theorem skipTrailers_crlf (data : Bytes) : skipTrailers (crlf ++ data) = some data := by
  have hfind : find crlf (crlf ++ data) = some 0 := by
    simp [crlf, find, List.isPrefixOf]
  rw [skipTrailers]
  split <;> simp_all [crlf]

theorem skipTrailers_line (hl : IsLine line) (hne : line ≠ []) (data : Bytes) :
    skipTrailers (line ++ crlf ++ data) = skipTrailers data := by
  have hfind := hl.find data
  have hpos := List.length_pos_of_ne_nil hne
  rw [skipTrailers]
  split
  · simp_all
  · simp_all
  · rename_i i hi
    have hlen : i + 1 = line.length := Option.some.inj (hi.symm.trans hfind)
    rw [hlen, List.append_assoc, ← List.drop_drop, List.drop_left]
    rfl

theorem decodeChunked_of_find_none (h : find crlf raw = none) :
    decodeChunked raw out = .incomplete := by
  rw [decodeChunked]
  split <;> simp_all

/-- A chunk line. -/
theorem decodeChunked_line (hl : IsLine line) (data out : Bytes) :
    decodeChunked (line ++ crlf ++ data) out =
      match chunkSize line with
      | none => .invalid
      | some size =>
        if size = 0 then
          match skipTrailers data with
          | none => .incomplete
          | some rest => .complete out rest
        else if data.length < size then .incomplete
        else if data.length < size + 2 then .incomplete
        else if (data.drop size).take 2 ≠ crlf then .invalid
        else decodeChunked (data.drop (size + 2)) (out ++ data.take size) := by
  have hfind := hl.find data
  rw [decodeChunked]
  split
  · simp_all
  · rename_i i hi
    rw [hfind] at hi
    have hdrop : (line ++ crlf ++ data).drop (line.length + 2) = data := by
      rw [List.append_assoc, ← List.drop_drop, List.drop_left]
      rfl
    rw [← Option.some.inj hi, hdrop, List.append_assoc, List.take_left]

end Http1

end AsterNet
