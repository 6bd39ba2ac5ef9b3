import AsterNet.Engine.Http1.Equiv.Chunked
import AsterNet.Lib.Spelling

/-!
# Which chunked bodies the decoder accepts

`IsChunked m b` is the chunked coding as it is defined: size lines of hexadecimal digits, with an
extension behind a semicolon or none.  The decoder leaves the reading of a size to `strtoull` on a C
string, so it also takes lines with white space, a sign or `0x` before the digits, or with a NUL behind
them (`LooseSize`); `chunkSize_eq_some_iff` says that it takes no others.

`sound_iff`: the decoder keeps to the coding on exactly the inputs that have no such line where a size
line belongs.
-/

namespace AsterNet

namespace Http1

open ByteString

/-- A size line: digits of a number below 2⁶⁴, and an extension or none. -/
def IsSizeLine (line : Bytes) (n : ℕ) : Prop :=
  ∃ digits extension, line = digits ++ extension ∧ digits ≠ [] ∧ AllDigits 16 digits ∧
    digitsValue 16 digits = n ∧ n ≤ ullongMax ∧ ∀ c ∈ extension.head?, c = 59

/-- Chunks and their data. -/
inductive IsChunks : Bytes → Bytes → Prop
  | nil : IsChunks [] []
  | cons {l d cs b : Bytes} (hl : IsLine l) (hsize : IsSizeLine l d.length) (hne : d ≠ [])
      (h : IsChunks cs b) : IsChunks (l ++ crlf ++ (d ++ crlf ++ cs)) (d ++ b)

/-- Chunks, the last chunk, and its trailers. -/
def IsChunked (m b : Bytes) : Prop :=
  ∃ cs l t, m = cs ++ (l ++ crlf ++ t) ∧ IsChunks cs b ∧ IsLine l ∧ IsSizeLine l 0 ∧ IsTrailers t

/-- A line that `strtoull` takes for a size and that is none: there is something before the digits, or a
NUL behind them. -/
def LooseSize (line : Bytes) : Prop :=
  ∃ (w : Spelling 16) (tail : Bytes), line = w.bytes ++ tail ∧ w.magnitude ≤ ullongMax ∧
    (∀ c ∈ tail.head?, c = 59 ∨ c = 0) ∧ (¬ w.Plain ∨ tail.head? = some 0)

/-- There is no loose line where a size line belongs. -/
def NoLooseSize (raw : Bytes) : Prop :=
  ∀ cs b line rest, raw = cs ++ (line ++ crlf ++ rest) → IsChunks cs b → IsLine line → ¬ LooseSize line

/-- The decoder keeps to the coding: what it completes on begins with a chunked body, and it gives up as
soon as it has read a line that is no size line. -/
structure Sound (raw : Bytes) : Prop where
  complete : ∀ out rest, decodeChunked raw [] = .complete out rest →
    ∃ m, raw = m ++ rest ∧ IsChunked m out
  invalid : ∀ cs b line rest, raw = cs ++ (line ++ crlf ++ rest) → IsChunks cs b → IsLine line →
    (∀ n, ¬ IsSizeLine line n) → decodeChunked (cs ++ (line ++ crlf)) [] = .invalid

/-! ### The lines the decoder takes -/

/-- A C string ends before the first NUL. -/
theorem exists_cStr (s : Bytes) : ∃ rest, s = cStr s ++ rest ∧ ∀ c ∈ rest.head?, c = 0 := by
  refine ⟨s.dropWhile (· != 0), List.takeWhile_append_dropWhile.symm, fun c hc => ?_⟩
  have hnot := List.head?_dropWhile_not (· != (0 : UInt8)) s
  rw [Option.mem_def.mp hc] at hnot
  simpa using hnot

/-- The C string of what follows a size: nothing, or an extension. -/
theorem head_cStr {tail : Bytes} (htail : ∀ c ∈ tail.head?, c = 59 ∨ c = 0) :
    ∀ c ∈ (cStr tail).head?, c = 59 := by
  intro c hc
  cases tail with
  | nil => cases hc
  | cons d tail =>
    rcases htail d rfl with rfl | rfl
    · exact (Option.some.inj hc).symm
    · cases hc

/-- **The lines the decoder takes for a size.** -/
theorem chunkSize_eq_some_iff {line : Bytes} {n : ℕ} : chunkSize line = some n ↔
    ∃ (w : Spelling 16) (tail : Bytes), line = w.bytes ++ tail ∧ w.magnitude ≤ ullongMax ∧
      (∀ c ∈ tail.head?, c = 59 ∨ c = 0) ∧ w.value = n := by
  constructor
  · intro h
    -- the number is read from the C string, which ends at a zero byte
    obtain ⟨rest, hline, hrest⟩ := exists_cStr line
    unfold chunkSize at h
    dsimp only at h
    split_ifs at h with hread
    rw [not_or, not_or] at hread
    obtain ⟨hstop, hrange, hends⟩ := hread
    have hhead : ∀ c ∈ ((cStr line).drop (strtoull 16 (cStr line)).stop).head?, c = 59 := by
      intro c hc
      rw [Option.mem_def.mp hc] at hends
      simpa using hends
    obtain ⟨w, tail, hcstr, htail, hle⟩ := exists_spelling hstop (by simpa using hrange) fun c hc => by
      rw [hhead c hc]
      decide
    have hread := w.strtoull_append (.inr rfl) htail hle
    rw [hcstr, hread, List.drop_left] at hhead
    rw [hcstr, hread] at h
    refine ⟨w, tail ++ rest, by rw [← List.append_assoc, ← hcstr]; exact hline, hle, ?_,
      Option.some.inj h⟩
    intro c hc
    -- the C string ends with the line, or in front of a zero byte
    cases tail with
    | nil => exact .inr (hrest c hc)
    | cons d tail =>
      obtain rfl : d = c := Option.some.inj hc
      exact .inl (hhead d rfl)
  · rintro ⟨w, tail, rfl, hle, htail, rfl⟩
    have hcstr : cStr (w.bytes ++ tail) = w.bytes ++ cStr tail := by
      apply List.takeWhile_append_of_pos
      intro c hc
      simpa using ne_of_mem_of_not_mem hc (w.notMem_zero (.inr rfl))
    have hhead := head_cStr htail
    have hends : Spelling.Ends 16 (cStr tail) := by
      refine ⟨fun c hc => ?_, fun c hc => ?_⟩
      · rw [hhead c hc]
        decide
      · rw [hhead c hc]
        decide
    have hread := w.strtoull_append (.inr rfl) hends hle
    have hpos : w.bytes.length ≠ 0 := by
      have hdigits := List.length_pos_of_ne_nil w.digits_ne
      simp only [Spelling.bytes, List.length_append]
      omega
    unfold chunkSize
    simp only [hcstr, hread, List.drop_left]
    -- the stop is not in front, the magnitude fits, and a semicolon or nothing follows
    rw [if_neg]
    rintro (h | h | h)
    · exact hpos h
    · cases h
    · cases hc : (cStr tail).head? with
      | none =>
        rw [hc] at h
        cases h
      | some c =>
        rw [hc, hhead c hc] at h
        cases h

/-- A size line is read as its size. -/
theorem IsSizeLine.chunkSize {line : Bytes} {n : ℕ} (h : IsSizeLine line n) : chunkSize line = some n := by
  obtain ⟨digits, extension, rfl, hne, hall, rfl, hle, hextension⟩ := h
  refine chunkSize_eq_some_iff.mpr ⟨⟨[], [], [], digits, by simp, .inl rfl, .inl rfl, hne, hall⟩,
    extension, rfl, hle, fun c hc => .inl (hextension c hc), rfl⟩

/-- What is read as a size is a size line, or a loose one. -/
theorem isSizeLine_or_loose {line : Bytes} {n : ℕ} (h : Http1.chunkSize line = some n) :
    IsSizeLine line n ∨ LooseSize line := by
  obtain ⟨w, tail, rfl, hle, htail, rfl⟩ := chunkSize_eq_some_iff.mp h
  by_cases hplain : w.Plain ∧ tail.head? ≠ some 0
  · left
    obtain ⟨⟨hblanks, hsign, hpre⟩, hzero⟩ := hplain
    refine ⟨w.digits, tail, ?_, w.digits_ne, w.digits_all, ?_, ?_, ?_⟩
    · rw [Spelling.bytes, hblanks, hsign, hpre]
      rfl
    · rw [Spelling.value, hsign]
      rfl
    · rw [Spelling.value, hsign]
      exact hle
    · intro c hc
      rcases htail c hc with rfl | rfl
      · rfl
      · exact absurd hc hzero
  · right
    refine ⟨w, tail, rfl, hle, htail, ?_⟩
    rw [not_and_or, not_not] at hplain
    exact hplain

theorem LooseSize.exists_chunkSize {line : Bytes} (h : LooseSize line) :
    ∃ n, Http1.chunkSize line = some n := by
  obtain ⟨w, tail, heq, hle, htail, -⟩ := h
  exact ⟨w.value, chunkSize_eq_some_iff.mpr ⟨w, tail, heq, hle, htail, rfl⟩⟩

/-- What comes before the digits of a loose size does not begin a size line. -/
theorem plain_of_append_eq {w : Spelling 16} {tail digits extension : Bytes} (hne : digits ≠ [])
    (hall : AllDigits 16 digits) (hextension : ∀ c ∈ extension.head?, c = 59)
    (heq : w.bytes ++ tail = digits ++ extension) : w.Plain := by
  obtain ⟨d, ds, rfl⟩ := List.exists_cons_of_ne_nil hne
  have hd : (digitVal 16 d).isSome = true := hall d List.mem_cons_self
  obtain ⟨hspace, hminus, hplus, -⟩ := digitVal_isSome_cases d hd
  rw [Spelling.bytes, List.append_assoc] at heq
  -- a digit stands in front, so there are no blanks and no sign before it
  have hblanks : w.blanks = [] := by
    cases hb : w.blanks with
    | nil => rfl
    | cons c cs =>
      rw [hb] at heq
      obtain rfl : c = d := (List.cons.inj heq).1
      rw [w.blanks_all c (hb ▸ List.mem_cons_self)] at hspace
      cases hspace
  rw [hblanks, List.nil_append, List.append_assoc] at heq
  have hsign : w.sign = [] := by
    rcases w.sign_cases with h | h | h
    · exact h
    · rw [h] at heq
      exact absurd (List.cons.inj heq).1.symm hplus
    · rw [h] at heq
      exact absurd (List.cons.inj heq).1.symm hminus
  rw [hsign, List.nil_append, List.append_assoc] at heq
  -- an `x` is neither a digit nor the semicolon of an extension
  have hx : ∀ c rest, digitVal 16 c = none → c ≠ 59 → ds ++ extension ≠ c :: rest := by
    intro c rest hc hsemicolon hrest
    cases ds with
    | nil => exact hsemicolon (hextension c (by rw [show extension = c :: rest from hrest]; rfl))
    | cons e ds =>
      obtain rfl : e = c := (List.cons.inj hrest).1
      have he := hall e (by simp)
      rw [hc] at he
      cases he
  refine ⟨hblanks, hsign, ?_⟩
  -- the prefix `0x` would need an `x` behind the first digit
  rcases w.pre_cases with h | ⟨-, h | h⟩
  · exact h
  · rw [h] at heq
    exact absurd (List.cons.inj heq).2.symm (hx 120 _ (by decide) (by decide))
  · rw [h] at heq
    exact absurd (List.cons.inj heq).2.symm (hx 88 _ (by decide) (by decide))

/-- A loose line is no size line. -/
theorem LooseSize.not_isSizeLine {line : Bytes} (h : LooseSize line) (n : ℕ) : ¬ IsSizeLine line n := by
  rintro ⟨digits, extension, heq, hne, hall, -, -, hextension⟩
  obtain ⟨w, tail, hline, -, htail, hloose⟩ := h
  rw [hline] at heq
  have hplain := plain_of_append_eq hne hall hextension heq
  -- the spelling is not a plain one, or a zero byte follows it
  rcases hloose with hnot | hzero
  · exact hnot hplain
  · -- both texts have the same run of digits, and the byte behind it
    obtain ⟨hblanks, hsign, hpre⟩ := hplain
    have hbytes : w.bytes = w.digits := by
      rw [Spelling.bytes, hblanks, hsign, hpre]
      rfl
    have hstops : StopsDigits 16 extension := by
      intro c hc
      rw [hextension c hc]
      decide
    have hstops' : StopsDigits 16 tail := by
      intro c hc
      rw [Option.mem_def, hzero] at hc
      obtain rfl := Option.some.inj hc
      decide
    have hrun := congrArg (digitRun 16) heq
    rw [hbytes, digitRun_append w.digits_all hstops', digitRun_append hall hstops] at hrun
    rw [hbytes, hrun] at heq
    rw [List.append_cancel_left heq] at hzero
    exact absurd (hextension 0 hzero) (by decide)

/-! ### The decoder over chunks -/

/-- Chunks in front are decoded. -/
theorem decodeChunked_chunks {cs b : Bytes} (h : IsChunks cs b) (rest out : Bytes) :
    decodeChunked (cs ++ rest) out = decodeChunked rest (out ++ b) := by
  induction h generalizing out with
  | nil => rw [List.nil_append, List.append_nil]
  | @cons l d cs b hl hsize hne _ ih =>
    have hassoc : l ++ crlf ++ (d ++ crlf ++ cs) ++ rest = l ++ crlf ++ (d ++ crlf ++ (cs ++ rest)) := by
      simp only [List.append_assoc]
    rw [hassoc, decodeChunked_chunk hl hsize.chunkSize hne, ih, List.append_assoc]

/-- A line the decoder takes for a size leaves it waiting for what is behind. -/
theorem decodeChunked_of_chunkSize {line : Bytes} {n : ℕ} (hl : IsLine line)
    (hsize : chunkSize line = some n) (out : Bytes) : decodeChunked (line ++ crlf) out = .incomplete := by
  have hline := decodeChunked_line hl [] out
  rw [List.append_nil, hsize] at hline
  have htrailers : skipTrailers [] = none := skipTrailers_of_find_none rfl
  rw [hline]
  dsimp only
  by_cases hzero : n = 0
  · rw [if_pos hzero, htrailers]
  · rw [if_neg hzero, List.length_nil, if_pos (Nat.pos_of_ne_zero hzero)]

/-- The decoder gives up on any other line. -/
theorem decodeChunked_of_chunkSize_none {line : Bytes} (hl : IsLine line) (hsize : chunkSize line = none)
    (out : Bytes) : decodeChunked (line ++ crlf) out = .invalid := by
  have hline := decodeChunked_line hl [] out
  rw [List.append_nil, hsize] at hline
  exact hline

/-- Without loose lines a message of the decoder is a chunked body. -/
theorem isChunked_of_isCoding {m b : Bytes} (h : IsCoding m b) (rest : Bytes)
    (hnone : NoLooseSize (m ++ rest)) : IsChunked m b := by
  induction h with
  | @last l t hl hsize ht =>
    have hnot : ¬ LooseSize l := hnone [] [] l (t ++ rest) (List.append_assoc _ _ _) .nil hl
    exact ⟨[], l, t, rfl, .nil, hl, (isSizeLine_or_loose hsize).resolve_right hnot, ht⟩
  | @chunk l d m b hl hsize hne _ ih =>
    have hassoc : l ++ crlf ++ (d ++ crlf ++ m) ++ rest = l ++ crlf ++ (d ++ crlf ++ (m ++ rest)) := by
      simp only [List.append_assoc]
    rw [hassoc] at hnone
    have hnot : ¬ LooseSize l := hnone [] [] l _ rfl .nil hl
    have hline := (isSizeLine_or_loose hsize).resolve_right hnot
    have hrest : NoLooseSize (m ++ rest) := by
      intro cs b' line rest' heq hcs hline'
      refine hnone (l ++ crlf ++ (d ++ crlf ++ cs)) (d ++ b') line rest' ?_ (.cons hl hline hne hcs) hline'
      rw [heq]
      simp only [List.append_assoc]
    obtain ⟨cs, l', t, rfl, hcs, hl', hzero, ht⟩ := ih hrest
    refine ⟨l ++ crlf ++ (d ++ crlf ++ cs), l', t, ?_, .cons hl hline hne hcs, hl', hzero, ht⟩
    simp only [List.append_assoc]

/-- **The decoder keeps to the chunked coding** on exactly the inputs without a loose line where a size
line belongs. -/
theorem sound_iff (raw : Bytes) : Sound raw ↔ NoLooseSize raw := by
  constructor
  · intro h cs b line rest heq hcs hl hloose
    have hinvalid := h.invalid cs b line rest heq hcs hl hloose.not_isSizeLine
    obtain ⟨n, hsize⟩ := hloose.exists_chunkSize
    rw [decodeChunked_chunks hcs, decodeChunked_of_chunkSize hl hsize] at hinvalid
    cases hinvalid
  · intro hnone
    refine ⟨fun out rest h => ?_, fun cs b line rest heq hcs hl hnot => ?_⟩
    · obtain ⟨m, b, rfl, rfl, hm⟩ := isCoding_of_decodeChunked h
      exact ⟨m, rfl, isChunked_of_isCoding hm rest hnone⟩
    · rw [decodeChunked_chunks hcs]
      refine decodeChunked_of_chunkSize_none hl ?_ _
      cases hsize : chunkSize line with
      | none => rfl
      | some n =>
        rcases isSizeLine_or_loose hsize with h | h
        · exact absurd h (hnot n)
        · exact absurd h (hnone cs b line rest heq hcs hl)

/-- A chunk whose size has a plus sign. -/
def plusChunked : Bytes :=
  ascii "+5" ++ crlf ++ (ascii "hello" ++ crlf ++ (ascii "0" ++ crlf ++ crlf))

/-- The decoder takes it. -/
theorem not_sound_plusChunked :
    decodeChunked plusChunked [] = .complete (ascii "hello") [] ∧ ¬ Sound plusChunked := by
  have hl : IsLine (ascii "+5") := by decide +kernel
  have hsize : chunkSize (ascii "+5") = some 5 := by decide +kernel
  have hlast : IsCoding (ascii "0" ++ crlf ++ crlf) [] :=
    .last (by decide +kernel) (by decide +kernel) .last
  have hcoding : IsCoding plusChunked (ascii "hello" ++ []) := .chunk hl hsize (by decide) hlast
  constructor
  · have hdecode := decodeChunked_of_isCoding hcoding [] []
    rw [List.append_nil, List.append_nil] at hdecode
    exact hdecode
  · intro hsound
    have hnot : ∀ n, ¬ IsSizeLine (ascii "+5") n := by
      refine LooseSize.not_isSizeLine ⟨⟨[], [43], [], [53], by simp, by simp, by simp, by simp, ?_⟩, [],
        ?_, ?_, by simp, .inl ?_⟩
      · decide
      · decide
      · decide
      · rintro ⟨-, hsign, -⟩
        cases hsign
    have hinvalid := hsound.invalid [] [] (ascii "+5") _ rfl .nil hl hnot
    rw [List.nil_append, decodeChunked_of_chunkSize hl hsize] at hinvalid
    cases hinvalid

end Http1

end AsterNet
