import AsterNet.Engine.Http1.Chunked
import AsterNet.Engine.Http1.Message

/-!
# The decoder and the chunked coding

`IsCoding m b` is the coding as the decoder understands it: chunk lines with a readable size, chunks
of that size, a zero line and its trailers.  `decodeChunked_of_isCoding` and
`isCoding_of_decodeChunked` say that the decoder completes on exactly the inputs that begin with such
a message, and stops right behind it.  `lawful_decodeChunked` makes it a parser in the sense of
`Incremental`.
-/

namespace AsterNet

namespace Http1

open ByteString

/-! ### The coding -/

/-- Trailer lines up to the empty one. -/
inductive IsTrailers : Bytes → Prop
  | last : IsTrailers crlf
  | line {l t : Bytes} (hl : IsLine l) (hne : l ≠ []) (ht : IsTrailers t) :
      IsTrailers (l ++ crlf ++ t)

/-- A chunked message and its body. -/
inductive IsCoding : Bytes → Bytes → Prop
  | last {l t : Bytes} (hl : IsLine l) (hsize : chunkSize l = some 0) (ht : IsTrailers t) :
      IsCoding (l ++ crlf ++ t) []
  | chunk {l d m b : Bytes} (hl : IsLine l) (hsize : chunkSize l = some d.length) (hne : d ≠ [])
      (hm : IsCoding m b) : IsCoding (l ++ crlf ++ (d ++ crlf ++ m)) (d ++ b)

/-! ### The trailers -/

theorem skipTrailers_of_isTrailers {t : Bytes} (h : IsTrailers t) (rest : Bytes) :
    skipTrailers (t ++ rest) = some rest := by
  induction h with
  | last => exact skipTrailers_crlf rest
  | line hl hne _ ih => rw [List.append_assoc, skipTrailers_line hl hne, ih]

theorem isTrailers_of_skipTrailers {raw rest : Bytes} (h : skipTrailers raw = some rest) :
    ∃ t, raw = t ++ rest ∧ IsTrailers t := by
  induction hn : raw.length using Nat.strong_induction_on generalizing raw with
  | _ n ih =>
    cases hf : find crlf raw with
    | none =>
      rw [skipTrailers_of_find_none hf] at h
      cases h
    | some i =>
      obtain ⟨line, data, hl, rfl, -⟩ := exists_line_of_find hf
      by_cases hne : line = []
      · subst hne
        rw [List.nil_append, skipTrailers_crlf] at h
        obtain rfl := Option.some.inj h
        exact ⟨crlf, rfl, .last⟩
      · rw [skipTrailers_line hl hne] at h
        have hlt : data.length < n := by
          have := List.length_pos_of_ne_nil hne
          rw [← hn, List.length_append, List.length_append]
          omega
        obtain ⟨t, rfl, ht⟩ := ih data.length hlt h rfl
        exact ⟨line ++ crlf ++ t, (List.append_assoc ..).symm, .line hl hne ht⟩

/-! ### The decoder -/

/-- The chunk behind a line whose size is that of the chunk. -/
theorem decodeChunked_chunk {line d : Bytes} (hl : IsLine line)
    (hsize : chunkSize line = some d.length) (hne : d ≠ []) (data out : Bytes) :
    decodeChunked (line ++ crlf ++ (d ++ crlf ++ data)) out = decodeChunked data (out ++ d) := by
  have hpos := List.length_pos_of_ne_nil hne
  have htake : (d ++ crlf ++ data).take d.length = d := by
    rw [List.append_assoc, List.take_left]
  have hdrop : (d ++ crlf ++ data).drop d.length = crlf ++ data := by
    rw [List.append_assoc, List.drop_left]
  have hdrop2 : (d ++ crlf ++ data).drop (d.length + 2) = data := by
    rw [← List.drop_drop, hdrop]
    rfl
  have hlen : (d ++ crlf ++ data).length = d.length + 2 + data.length := by
    rw [List.length_append, List.length_append]
    rfl
  rw [decodeChunked_line hl, hsize]
  dsimp only
  rw [if_neg (by omega), if_neg (by omega), if_neg (by omega), htake, hdrop, hdrop2, if_neg]
  rw [not_not]
  rfl

/-- **The decoder completes on every message** and stops right behind it. -/
theorem decodeChunked_of_isCoding {m b : Bytes} (h : IsCoding m b) (out rest : Bytes) :
    decodeChunked (m ++ rest) out = .complete (out ++ b) rest := by
  induction h generalizing out with
  | last hl hsize ht =>
    rw [List.append_assoc, decodeChunked_line hl, hsize]
    dsimp only
    rw [if_pos rfl, skipTrailers_of_isTrailers ht, List.append_nil]
  | @chunk l d m b hl hsize hne _ ih =>
    have hassoc : l ++ crlf ++ (d ++ crlf ++ m) ++ rest =
        l ++ crlf ++ (d ++ crlf ++ (m ++ rest)) := by
      simp only [List.append_assoc]
    rw [hassoc, decodeChunked_chunk hl hsize hne, ih, List.append_assoc]

/-- **It completes on nothing else.** -/
theorem isCoding_of_decodeChunked {raw out body rest : Bytes}
    (h : decodeChunked raw out = .complete body rest) :
    ∃ m b, raw = m ++ rest ∧ body = out ++ b ∧ IsCoding m b := by
  -- the induction is on the bytes left, since every turn takes a line at least
  induction hn : raw.length using Nat.strong_induction_on generalizing raw out with
  | _ n ih =>
    cases hf : find crlf raw with
    | none =>
      rw [decodeChunked_of_find_none hf] at h
      cases h
    | some i =>
      obtain ⟨line, data, hl, rfl, -⟩ := exists_line_of_find hf
      rw [decodeChunked_line hl] at h
      cases hsize : chunkSize line with
      | none =>
        rw [hsize] at h
        cases h
      | some size =>
        rw [hsize] at h
        dsimp only at h
        split_ifs at h with hzero hshort hshort2 hmark
        · -- the zero chunk: only trailers follow
          subst hzero
          cases ht : skipTrailers data with
          | none =>
            rw [ht] at h
            cases h
          | some rest' =>
            rw [ht] at h
            obtain ⟨rfl, rfl⟩ := Incremental.Parse.complete.inj h
            obtain ⟨t, rfl, htrailers⟩ := isTrailers_of_skipTrailers ht
            exact ⟨line ++ crlf ++ t, [], (List.append_assoc ..).symm, (List.append_nil _).symm,
              .last hl hsize htrailers⟩
        -- a chunk with its CRLF, and the rest of the coding behind it
        · have hlt : (data.drop (size + 2)).length < n := by
            rw [← hn, List.length_append, List.length_append, List.length_drop]
            simp only [crlf, List.length_cons, List.length_nil]
            omega
          obtain ⟨m, b, hm, rfl, hcoding⟩ := ih _ hlt h rfl
          have hd : (data.take size).length = size := by
            rw [List.length_take]
            omega
          have hdata : data = data.take size ++ crlf ++ (m ++ rest) := by
            have hmark' : (data.drop size).take 2 = crlf := not_not.mp hmark
            rw [← hm, ← List.drop_drop, ← hmark', List.append_assoc, List.take_append_drop,
              List.take_append_drop]
          refine ⟨line ++ crlf ++ (data.take size ++ crlf ++ m), data.take size ++ b, ?_, ?_, ?_⟩
          · conv_lhs => rw [hdata]
            simp only [List.append_assoc]
          · rw [List.append_assoc]
          · refine .chunk hl (by rw [hd, hsize]) ?_ hcoding
            intro hnil
            rw [hnil] at hd
            exact hzero hd.symm

/-- A stream begins with at most one message. -/
theorem IsCoding.unique {m b t m' b' t' : Bytes} (h : IsCoding m b) (h' : IsCoding m' b')
    (heq : m ++ t = m' ++ t') : m = m' ∧ b = b' := by
  have hdecode := decodeChunked_of_isCoding h [] t
  rw [heq, decodeChunked_of_isCoding h' [] t'] at hdecode
  obtain ⟨hb, rfl⟩ := Incremental.Parse.complete.inj hdecode
  exact ⟨List.append_cancel_right heq, hb.symm⟩

/-- A wrong input stays wrong. -/
theorem decodeChunked_append_of_invalid {raw out : Bytes} (h : decodeChunked raw out = .invalid)
    (t : Bytes) : decodeChunked (raw ++ t) out = .invalid := by
  -- the induction is on the bytes left; the appended ones only come behind
  induction hn : raw.length using Nat.strong_induction_on generalizing raw out with
  | _ n ih =>
    cases hf : find crlf raw with
    | none =>
      rw [decodeChunked_of_find_none hf] at h
      cases h
    | some i =>
      obtain ⟨line, data, hl, rfl, -⟩ := exists_line_of_find hf
      rw [decodeChunked_line hl] at h
      rw [List.append_assoc, decodeChunked_line hl]
      cases hsize : chunkSize line with
      | none => rfl
      | some size =>
        rw [hsize] at h
        dsimp only at h ⊢
        split_ifs at h with hzero hshort hshort2 hmark
        · cases ht : skipTrailers data <;> rw [ht] at h <;> cases h
        · -- the two bytes behind the chunk are there and are not CRLF
          have hlen : data.length ≤ (data ++ t).length := by
            rw [List.length_append]
            omega
          rw [if_neg hzero, if_neg (by omega), if_neg (by omega), if_pos]
          rwa [List.drop_append_of_le_length (by omega), List.take_append_of_le_length]
          rw [List.length_drop]
          omega
        -- a whole chunk is there, so the next turn sees a wrong input too
        · have hlen : data.length ≤ (data ++ t).length := by
            rw [List.length_append]
            omega
          have hlt : (data.drop (size + 2)).length < n := by
            rw [← hn, List.length_append, List.length_append, List.length_drop]
            simp only [crlf, List.length_cons, List.length_nil]
            omega
          rw [if_neg hzero, if_neg (by omega), if_neg (by omega), if_neg]
          · rw [List.drop_append_of_le_length (by omega), List.take_append_of_le_length (by omega)]
            exact ih _ hlt h rfl
          · rwa [List.drop_append_of_le_length (by omega), List.take_append_of_le_length]
            rw [List.length_drop]
            omega

/-- **The decoder is a lawful incremental parser.** -/
theorem lawful_decodeChunked : Incremental.Lawful fun raw => decodeChunked raw [] where
  append_complete := by
    intro raw body rest h t
    obtain ⟨m, b, rfl, rfl, hm⟩ := isCoding_of_decodeChunked h
    rw [List.append_assoc]
    exact decodeChunked_of_isCoding hm [] (rest ++ t)
  append_invalid := fun h t => decodeChunked_append_of_invalid h t
  exact := by
    intro raw body rest h
    obtain ⟨m, b, rfl, rfl, hm⟩ := isCoding_of_decodeChunked h
    have := decodeChunked_of_isCoding hm [] []
    rw [List.append_nil] at this
    exact ⟨m, rfl, this⟩

/-! ### Well-formed bodies -/

theorem SizeLine.not_mem_text {n : ℕ} (l : SizeLine n) : (13 : UInt8) ∉ l.text := by
  rw [SizeLine.text, List.mem_append, not_or]
  refine ⟨?_, l.extension.no_cr⟩
  intro h
  exact (digitVal_isSome_cases 13 (l.digits_all 13 h)).2.2.2.2.1 rfl

/-- The decoder reads the size a well-formed line announces, when it fits. -/
theorem chunkSize_text {n : ℕ} (l : SizeLine n) :
    chunkSize l.text = if ullongMax < n then none else some n := by
  -- a digit is not zero, so the C string has the whole number
  have hnul : ∀ c ∈ l.digits, (c != 0) = true := by
    intro c hc
    rw [bne_iff_ne]
    exact (digitVal_isSome_cases c (l.digits_all c hc)).2.2.2.2.2.2.1
  have hcstr : cStr l.text = l.digits ++ cStr l.extension.bytes := by
    rw [SizeLine.text, cStr, List.takeWhile_append_of_pos hnul]
    rfl
  -- the number ends at the semicolon of an extension, or with the line
  have hhead : ∀ c ∈ (cStr l.extension.bytes).head?, c = 59 := by
    intro c hc
    cases he : l.extension.bytes with
    | nil =>
      rw [he] at hc
      cases hc
    | cons d s =>
      have hd : d = 59 := l.extension_head d (by rw [he]; rfl)
      rw [he, hd] at hc
      exact (Option.some.inj hc).symm
  have hstops : StopsDigits 16 (cStr l.extension.bytes) := by
    intro c hc
    rw [hhead c hc]
    decide
  have hx : ∀ c ∈ (cStr l.extension.bytes).head?, toLower c ≠ 120 := by
    intro c hc
    rw [hhead c hc]
    decide
  have hnumber := strtoull_digits (.inr rfl) l.digits_ne l.digits_all hstops hx
  have hpos := List.length_pos_of_ne_nil l.digits_ne
  unfold chunkSize
  dsimp only
  rw [hcstr, hnumber, l.digits_value]
  -- `strtoull` saturates, and the decoder refuses what it made
  by_cases hlong : ullongMax < n
  · simp [if_pos hlong]
  · rw [if_neg hlong, if_neg hlong]
    dsimp only
    rw [List.drop_left, if_neg]
    rintro (h | h | h)
    · omega
    · cases h
    · cases he : (cStr l.extension.bytes).head? with
      | none =>
        rw [he] at h
        cases h
      | some c =>
        rw [he, hhead c (by rw [he]; rfl)] at h
        cases h

theorem isTrailers_flatMap (trailers : List Trailer) :
    IsTrailers (trailers.flatMap (fun t => t.text.bytes ++ crlf) ++ crlf) := by
  induction trailers with
  | nil => exact .last
  | cons t trailers ih =>
    rw [List.flatMap_cons, List.append_assoc]
    exact .line (isLine_of_not_mem t.text.no_cr) t.text_ne ih

/-- **A well-formed chunked body is a message of the decoder**, and its body is the chunks. -/
theorem ChunkedBody.isCoding (c : ChunkedBody) (h : c.body.length ≤ ullongMax) :
    IsCoding c.bytes c.body := by
  obtain ⟨chunks, last, trailers⟩ := c
  induction chunks with
  | nil =>
    have hlast : chunkSize last.text = some 0 := (chunkSize_text last).trans (if_neg (Nat.not_lt_zero _))
    have := IsCoding.last (isLine_of_not_mem last.not_mem_text) hlast (isTrailers_flatMap trailers)
    simpa only [ChunkedBody.bytes, ChunkedBody.body, List.flatMap_nil, List.nil_append,
      List.append_assoc] using this
  | cons chunk chunks ih =>
    have hle : chunk.data.length + (chunks.flatMap Chunk.data).length ≤ ullongMax := by
      simpa [ChunkedBody.body] using h
    have hsize : chunkSize chunk.size.text = some chunk.data.length :=
      (chunkSize_text chunk.size).trans (if_neg (by omega))
    have hrest : (chunks.flatMap Chunk.data).length ≤ ullongMax := by omega
    have := IsCoding.chunk (isLine_of_not_mem chunk.size.not_mem_text) hsize chunk.data_ne (ih hrest)
    simpa only [ChunkedBody.bytes, ChunkedBody.body, ChunkedBody.chunkBytes, List.flatMap_cons,
      List.append_assoc] using this

/-- A well-formed chunked body of any length is a message of the decoder, or one of its sizes does not
fit. -/
theorem ChunkedBody.decodeChunked_bytes (c : ChunkedBody) (out : Bytes) :
    decodeChunked c.bytes out = .complete (out ++ c.body) [] ∨ decodeChunked c.bytes out = .invalid := by
  obtain ⟨chunks, last, trailers⟩ := c
  -- the induction is on the chunks; the sizes decide which of the two it is
  induction chunks generalizing out with
  | nil =>
    have hcoding := ChunkedBody.isCoding ⟨[], last, trailers⟩ (Nat.zero_le _)
    have hdecode := decodeChunked_of_isCoding hcoding out []
    rw [List.append_nil] at hdecode
    exact .inl hdecode
  | cons chunk chunks ih =>
    have hbytes : ChunkedBody.bytes ⟨chunk :: chunks, last, trailers⟩ = chunk.size.text ++ crlf ++
        (chunk.data ++ crlf ++ ChunkedBody.bytes ⟨chunks, last, trailers⟩) := by
      simp only [ChunkedBody.bytes, ChunkedBody.chunkBytes, List.flatMap_cons, List.append_assoc]
    have hbody : ChunkedBody.body ⟨chunk :: chunks, last, trailers⟩ =
        chunk.data ++ ChunkedBody.body ⟨chunks, last, trailers⟩ := by
      simp only [ChunkedBody.body, List.flatMap_cons]
    have hline := isLine_of_not_mem chunk.size.not_mem_text
    rw [hbytes, hbody]
    by_cases hlong : ullongMax < chunk.data.length
    · right
      rw [decodeChunked_line hline, chunkSize_text, if_pos hlong]
    · have hsize : chunkSize chunk.size.text = some chunk.data.length :=
        (chunkSize_text chunk.size).trans (if_neg hlong)
      rw [decodeChunked_chunk hline hsize chunk.data_ne, ← List.append_assoc]
      exact ih (out ++ chunk.data)

end Http1

end AsterNet
