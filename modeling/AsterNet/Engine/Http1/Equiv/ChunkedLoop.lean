import AsterNet.Engine.Http1.ChunkedLoop
import AsterNet.Engine.Http1.Equiv.Chunked

/-!
# The loops of the decoder end, and their verdict is stable

`turn_spec` is what one turn does: it ends with the verdict of `decodeChunked` on what is left, or goes
on further behind in the string with the same verdict to come.  From it `turns_eq` has the loops end
within the string and `pos_le_of_turns` keeps every position inside it.  `stableDecoding` adds what more
input does to a verdict.
-/

namespace AsterNet

namespace Http1

open ByteString

/-- The result that the decoder's answer stands for. -/
def verdictOf : ChunkParseResult → ChunkVerdict
  | .incomplete => .incomplete
  | .invalid => .invalid
  | .complete out _ => .complete out

/-- The verdict on a string. -/
def verdict (raw : Bytes) : ChunkVerdict := verdictOf (decodeChunked raw [])

/-- The verdict to come. -/
def Cursor.verdict (raw : Bytes) : Cursor → ChunkVerdict
  | chunks pos out => verdictOf (decodeChunked (raw.drop pos) out)
  | trailers pos out =>
    match skipTrailers (raw.drop pos) with
    | none => .incomplete
    | some _ => .complete out

/-- A string whose size, and two more, is a `size_t`. -/
def FitsSize (raw : Bytes) : Prop := raw.length + 2 < 2 ^ 64

section

variable {raw out line data : Bytes} {pos : ℕ}

/-- The part of a string from a position on, taken apart at its first line end. -/
theorem exists_line_at (hpos : pos ≤ raw.length) {i : ℕ} (h : findFrom crlf raw pos = some i) :
    ∃ line data, IsLine line ∧ raw.drop pos = line ++ crlf ++ data ∧ i = pos + line.length ∧
      raw.drop (i + 2) = data ∧ i + 2 ≤ raw.length := by
  obtain ⟨k, hk, rfl⟩ := Option.map_eq_some_iff.mp h
  obtain ⟨line, data, hl, hdrop, rfl⟩ := exists_line_of_find hk
  have hlength := congrArg List.length hdrop
  simp only [List.length_drop, List.length_append, crlf, List.length_cons, List.length_nil] at hlength
  refine ⟨line, data, hl, hdrop, rfl, ?_, by omega⟩
  rw [Nat.add_assoc, ← List.drop_drop, hdrop, List.append_assoc, ← List.drop_drop, List.drop_left]
  rfl

theorem addSize_eq_some {a b : ℕ} (h : a + b < 2 ^ 64) : addSize a b = some (a + b) := if_pos h

theorem subSize_eq_some {a b : ℕ} (h : b ≤ a) : subSize a b = some (a - b) := if_pos h

theorem substr_eq_some (h : pos ≤ raw.length) (n : ℕ) : substr raw pos n = some ((raw.drop pos).take n) :=
  if_pos h

/-- The turn behind a size line. -/
theorem chunkTurn_eq (hfits : FitsSize raw) (hpos : pos ≤ raw.length) (hdata : raw.drop pos = data)
    (size : ℕ) : chunkTurn raw out pos size =
      some (if size = 0 then .inl (.trailers pos out)
        else if data.length < size then .inr .incomplete
        else if data.length < size + 2 then .inr .incomplete
        else if (data.drop size).take 2 ≠ crlf then .inr .invalid
        else .inl (.chunks (pos + size + 2) (out ++ data.take size))) := by
  -- `raw` fits into `size_t`, so no sum below wraps around
  have hlength : data.length = raw.length - pos := by rw [← hdata, List.length_drop]
  have hfits' : raw.length + 2 < 2 ^ 64 := hfits
  unfold chunkTurn
  by_cases hzero : size = 0
  · rw [if_pos hzero, if_pos hzero]
    rfl
  rw [if_neg hzero, if_neg hzero, subSize_eq_some hpos]
  simp only [Option.bind_eq_bind, Option.bind_some, Option.pure_def]
  by_cases hshort : data.length < size
  · rw [if_pos (by omega), if_pos hshort]
  rw [if_neg (by omega), if_neg hshort, addSize_eq_some (by omega), Option.bind_some,
    addSize_eq_some (by omega), Option.bind_some]
  by_cases hshort' : data.length < size + 2
  · rw [if_pos (by omega), if_pos hshort']
  -- the chunk and the two bytes behind it are there
  have hmark : substr raw (pos + size) 2 = some ((data.drop size).take 2) := by
    rw [substr_eq_some (by omega), ← List.drop_drop, hdata]
  rw [if_neg (by omega), if_neg hshort', hmark, Option.bind_some, substr_eq_some hpos, hdata]
  by_cases hcrlf : (data.drop size).take 2 ≠ crlf
  · rw [if_pos hcrlf, if_pos hcrlf]
  · rw [if_neg hcrlf, if_neg hcrlf]
    rfl

/-- What a turn does that reads within the string: it ends with the verdict to come, or goes on further
behind. -/
def TurnSpec (raw : Bytes) (cursor : Cursor) : Prop :=
  turn raw cursor = some (.inr (cursor.verdict raw)) ∨
    ∃ next, turn raw cursor = some (.inl next) ∧ cursor.pos < next.pos ∧ next.pos ≤ raw.length ∧
      next.verdict raw = cursor.verdict raw

theorem turn_trailers (hfits : FitsSize raw) (hpos : pos ≤ raw.length) (out : Bytes) :
    TurnSpec raw (.trailers pos out) := by
  have hfits' : raw.length + 2 < 2 ^ 64 := hfits
  -- the cursor stands at a trailer line, or no line is complete yet
  cases hfind : findFrom crlf raw pos with
  | none =>
    left
    have hnone : find crlf (raw.drop pos) = none := Option.map_eq_none_iff.mp hfind
    simp only [turn, hfind, Cursor.verdict, skipTrailers_of_find_none hnone]
  | some i =>
    obtain ⟨line, data, hl, hdrop, rfl, hrest, hle⟩ := exists_line_at hpos hfind
    by_cases hempty : line = []
    · -- the empty line ends the message
      left
      subst hempty
      have hskip : skipTrailers (raw.drop pos) = some data := by
        rw [hdrop]
        exact skipTrailers_crlf data
      simp only [turn, hfind, Cursor.verdict, hskip, List.length_nil, Nat.add_zero, if_true]
    · right
      have hlength := List.length_pos_of_ne_nil hempty
      have hskip : skipTrailers (raw.drop pos) = skipTrailers data := by
        rw [hdrop]
        exact skipTrailers_line hl hempty data
      refine ⟨.trailers (pos + line.length + 2) out, ?_, ?_, hle, ?_⟩
      · simp only [turn, hfind]
        rw [if_neg (by omega), addSize_eq_some (by omega)]
        rfl
      · show pos < pos + line.length + 2
        omega
      · simp only [Cursor.verdict, hrest, hskip]

theorem turn_chunks (hfits : FitsSize raw) (hpos : pos ≤ raw.length) (out : Bytes) :
    TurnSpec raw (.chunks pos out) := by
  have hfits' : raw.length + 2 < 2 ^ 64 := hfits
  -- the cursor stands at a size line, or no line is complete yet
  cases hfind : findFrom crlf raw pos with
  | none =>
    left
    have hnone : find crlf (raw.drop pos) = none := Option.map_eq_none_iff.mp hfind
    simp only [turn, hfind, Cursor.verdict, decodeChunked_of_find_none hnone, verdictOf]
  | some i =>
    obtain ⟨line, data, hl, hdrop, rfl, hrest, hle⟩ := exists_line_at hpos hfind
    -- the line is read with `substr`, and the position moves behind its CRLF
    have hline : substr raw pos (pos + line.length - pos) = some line := by
      rw [substr_eq_some hpos, hdrop, Nat.add_sub_cancel_left, List.append_assoc, List.take_left]
    have hturn : turn raw (.chunks pos out) =
        (chunkSize line).elim (some (.inr .invalid)) (chunkTurn raw out (pos + line.length + 2)) := by
      simp only [turn, hfind, subSize_eq_some (Nat.le_add_right pos line.length), Option.bind_eq_bind,
        Option.bind_some, hline, addSize_eq_some (show pos + line.length + 2 < 2 ^ 64 by omega)]
      cases chunkSize line with
      | none => rfl
      | some size => rfl
    have hdecode := decodeChunked_line hl data out
    rw [← hdrop] at hdecode
    cases hsize : chunkSize line with
    | none =>
      left
      rw [hsize] at hturn hdecode
      rw [hturn, Cursor.verdict, hdecode]
      rfl
    | some size =>
      rw [hsize] at hturn hdecode
      dsimp only [Option.elim] at hturn hdecode
      rw [chunkTurn_eq hfits hle hrest] at hturn
      unfold TurnSpec
      rw [hturn, Cursor.verdict, hdecode]
      split_ifs with hzero hshort hshort' hcrlf
      · -- the last chunk
        right
        refine ⟨.trailers (pos + line.length + 2) out, rfl, ?_, hle, ?_⟩
        · show pos < pos + line.length + 2
          omega
        · simp only [Cursor.verdict, hrest]
          cases skipTrailers data with
          | none => rfl
          | some rest => rfl
      -- a chunk that is not there, and one that is not followed by CRLF
      · exact .inl rfl
      · exact .inl rfl
      · exact .inl rfl
      -- a whole chunk: the cursor moves behind it
      · right
        have hlength : data.length = raw.length - (pos + line.length + 2) := by
          rw [← hrest, List.length_drop]
        refine ⟨.chunks (pos + line.length + 2 + size + 2) (out ++ data.take size), rfl, ?_, ?_, ?_⟩
        · show pos < pos + line.length + 2 + size + 2
          omega
        · show pos + line.length + 2 + size + 2 ≤ raw.length
          omega
        · simp only [Cursor.verdict]
          rw [Nat.add_assoc (pos + line.length + 2), ← List.drop_drop, hrest]

/-- **One turn.** -/
theorem turn_spec (hfits : FitsSize raw) (cursor : Cursor) (hpos : cursor.pos ≤ raw.length) :
    TurnSpec raw cursor := by
  cases cursor with
  | chunks pos out => exact turn_chunks hfits hpos out
  | trailers pos out => exact turn_trailers hfits hpos out

/-- **The loops end**, with the verdict to come. -/
theorem turns_eq (hfits : FitsSize raw) {n : ℕ} {cursor : Cursor} (hpos : cursor.pos ≤ raw.length)
    (hn : raw.length < cursor.pos + n) : turns raw n cursor = some (.inr (cursor.verdict raw)) := by
  induction n generalizing cursor with
  | zero => omega
  | succ n ih =>
    rcases turn_spec hfits cursor hpos with hturn | ⟨next, hturn, hlt, hle, hverdict⟩
    · simp only [turns, hturn, Option.bind_eq_bind, Option.bind_some]
      rfl
    · simp only [turns, hturn, Option.bind_eq_bind, Option.bind_some]
      rw [ih hle (by omega), hverdict]

/-- **They stay within the string**, and every turn of them has a result. -/
theorem pos_le_of_turns (hfits : FitsSize raw) {n : ℕ} {cursor cursor' : Cursor}
    (hpos : cursor.pos ≤ raw.length) (h : turns raw n cursor = some (.inl cursor')) :
    cursor'.pos ≤ raw.length := by
  induction n generalizing cursor with
  | zero =>
    obtain rfl := Sum.inl.inj (Option.some.inj h)
    exact hpos
  | succ n ih =>
    rcases turn_spec hfits cursor hpos with hturn | ⟨next, hturn, -, hle, -⟩
    · simp only [turns, hturn, Option.bind_eq_bind, Option.bind_some] at h
      cases h
    · simp only [turns, hturn, Option.bind_eq_bind, Option.bind_some] at h
      exact ih hle h

end

/-! ### More input -/

/-- What a run of the decoder on a string, and on the strings that begin with it, comes to. -/
structure StableDecoding (p : Bytes) : Prop where
  /-- The loops end with the verdict of the decoder. -/
  ends : FitsSize p → turns p (p.length + 1) (.chunks 0 []) = some (.inr (verdict p))
  /-- Wherever they stand on the way is within the string, and the next turn reads within it. -/
  within : FitsSize p → ∀ n cursor, turns p n (.chunks 0 []) = some (.inl cursor) →
    cursor.pos ≤ p.length ∧ turn p cursor ≠ none
  complete : ∀ s out, verdict p = .complete out → verdict (p ++ s) = .complete out
  invalid : ∀ s, verdict p = .invalid → verdict (p ++ s) = .invalid
  /-- However much of the string was there at first. -/
  final : ∀ p₁ p₂, p₁ <+: p → p₂ <+: p → verdict p₁ ≠ .incomplete → verdict p₂ ≠ .incomplete →
    verdict p₁ = verdict p₂

theorem verdict_append_of_ne_incomplete {p : Bytes} (h : verdict p ≠ .incomplete) (s : Bytes) :
    verdict (p ++ s) = verdict p := by
  unfold verdict at h ⊢
  cases hdecode : decodeChunked p [] with
  | incomplete =>
    rw [hdecode] at h
    exact absurd rfl h
  | invalid =>
    rw [decodeChunked_append_of_invalid hdecode s]
  | complete out rest =>
    rw [lawful_decodeChunked.append_complete hdecode s]
    rfl

/-- **The decoder's loops end within the string, and more input leaves a verdict as it is.** -/
theorem stableDecoding (p : Bytes) : StableDecoding p := by
  refine ⟨fun hfits => ?_, fun hfits n cursor h => ?_, fun s out h => ?_, fun s h => ?_,
    fun p₁ p₂ h₁ h₂ hne₁ hne₂ => ?_⟩
  · have hlt : p.length < (Cursor.chunks 0 []).pos + (p.length + 1) := by
      show p.length < 0 + (p.length + 1)
      omega
    exact turns_eq hfits (Nat.zero_le _) hlt
  · have hpos : cursor.pos ≤ p.length := pos_le_of_turns hfits (Nat.zero_le _) h
    refine ⟨hpos, ?_⟩
    rcases turn_spec hfits cursor hpos with hturn | ⟨next, hturn, -⟩
    · simp [hturn]
    · simp [hturn]
  · rw [verdict_append_of_ne_incomplete (by simp [h]), h]
  · rw [verdict_append_of_ne_incomplete (by simp [h]), h]
  · obtain ⟨s₁, rfl⟩ := h₁
    obtain ⟨s₂, heq⟩ := h₂
    rw [← verdict_append_of_ne_incomplete hne₁ s₁, ← verdict_append_of_ne_incomplete hne₂ s₂, heq]

end Http1

end AsterNet
