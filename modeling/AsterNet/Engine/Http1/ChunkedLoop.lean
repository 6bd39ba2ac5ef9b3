import AsterNet.Engine.Http1.Chunked

/-!
# The loops of `decode_chunked`

`decode_chunked` as its loops run, with a position in the string instead of what is left of it.  Every
index and every sum and difference of a `size_t` is checked here: a turn that would read beyond the string
or wrap has no result.
-/

namespace AsterNet

namespace Http1

open ByteString

/-- `ChunkParseResult`, and `out` of a complete message. -/
inductive ChunkVerdict
  | incomplete
  | invalid
  | complete (out : Bytes)
  deriving DecidableEq, Repr

/-- Where the loops stand: before a size line, or behind the last chunk. -/
inductive Cursor
  | chunks (pos : ℕ) (out : Bytes)
  | trailers (pos : ℕ) (out : Bytes)
  deriving DecidableEq, Repr

/-- `pos`. -/
def Cursor.pos : Cursor → ℕ
  | chunks pos _ => pos
  | trailers pos _ => pos

/-- A sum that is one of numbers, too. -/
def addSize (a b : ℕ) : Option ℕ := if a + b < 2 ^ 64 then some (a + b) else none

/-- A difference that is one of numbers, too. -/
def subSize (a b : ℕ) : Option ℕ := if b ≤ a then some (a - b) else none

/-- `raw.substr(pos, n)`, which throws behind the end. -/
def substr (raw : Bytes) (pos n : ℕ) : Option Bytes :=
  if pos ≤ raw.length then some ((raw.drop pos).take n) else none

/-- The turn of the outer loop behind a size line. -/
def chunkTurn (raw out : Bytes) (pos size : ℕ) : Option (Cursor ⊕ ChunkVerdict) := do
  if size = 0 then return .inl (.trailers pos out)
  if (← subSize raw.length pos) < size then return .inr .incomplete
  let bodyEnd ← addSize pos size
  let next ← addSize bodyEnd 2
  if raw.length < next then return .inr .incomplete
  if (← substr raw bodyEnd 2) ≠ crlf then return .inr .invalid
  let data ← substr raw pos size
  return .inl (.chunks next (out ++ data))

/-- One turn of a loop: where the loops stand then, or the result. -/
def turn (raw : Bytes) : Cursor → Option (Cursor ⊕ ChunkVerdict)
  | .chunks pos out =>
    match findFrom crlf raw pos with
    | none => some (.inr .incomplete)
    | some lineEnd => do
      let sizeLine ← substr raw pos (← subSize lineEnd pos)
      match chunkSize sizeLine with
      | none => return .inr .invalid
      | some size => chunkTurn raw out (← addSize lineEnd 2) size
  | .trailers pos out =>
    match findFrom crlf raw pos with
    | none => some (.inr .incomplete)
    | some trailerEnd =>
      if trailerEnd = pos then some (.inr (.complete out))
      else (addSize trailerEnd 2).map fun pos => .inl (.trailers pos out)

/-- Up to `n` turns. -/
def turns (raw : Bytes) : ℕ → Cursor → Option (Cursor ⊕ ChunkVerdict)
  | 0, cursor => some (.inl cursor)
  | n + 1, cursor => do
    match ← turn raw cursor with
    | .inl cursor => turns raw n cursor
    | .inr verdict => return .inr verdict

end Http1

end AsterNet
