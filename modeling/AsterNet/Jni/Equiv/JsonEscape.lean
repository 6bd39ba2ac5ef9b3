import AsterNet.Jni.JsonEscape
import AsterNet.Lib.JsonString

/-!
# Escaping round-trips

`decode_jsonEscape`: the escaped bytes are the body of a JSON string in UTF-8, and a strict reader gets
back the characters of the bytes and, for each byte that is part of none, the character with its number.

`utf8Length` finds a character exactly where one is encoded (`utf8Length_of_isSequence`,
`isSequence_take`), so the loop goes over the bytes piece by piece (`Stepped`).
-/

namespace AsterNet

namespace Jni

open ByteString Utf8 JsonString

/-! ### The validator -/

theorem isTail_iff : ∀ b : UInt8, isTail b = true ↔ IsContinuation b := by
  unfold IsContinuation
  decide +kernel

theorem secondOk3_iff {a b : UInt8} : secondOk3 a b = true ↔
    IsContinuation b ∧ (a = 0xe0 → 0xa0 ≤ b) ∧ (a = 0xed → b ≤ 0x9f) := by
  unfold secondOk3
  split_ifs with h0 hd
  · subst h0
    simp [IsContinuation, UInt8.le_iff_toNat_le]
    omega
  · subst hd
    simp [IsContinuation, UInt8.le_iff_toNat_le]
    omega
  · rw [isTail_iff]
    exact ⟨fun h => ⟨h, fun ha => absurd ha h0, fun ha => absurd ha hd⟩, fun h => h.1⟩

theorem secondOk4_iff {a b : UInt8} : secondOk4 a b = true ↔
    IsContinuation b ∧ (a = 0xf0 → 0x90 ≤ b) ∧ (a = 0xf4 → b ≤ 0x8f) := by
  unfold secondOk4
  split_ifs with h0 h4
  · subst h0
    simp [IsContinuation, UInt8.le_iff_toNat_le]
    omega
  · subst h4
    simp [IsContinuation, UInt8.le_iff_toNat_le]
    omega
  · rw [isTail_iff]
    exact ⟨fun h => ⟨h, fun ha => absurd ha h0, fun ha => absurd ha h4⟩, fun h => h.1⟩

/-- A sequence at the front is found with its length. -/
theorem utf8Length_of_isSequence {s : Bytes} (h : IsSequence s) (t : Bytes) :
    utf8Length (s ++ t) = s.length := by
  unfold IsSequence at h
  split at h
  · case h_1 a =>
    simp only [UInt8.le_iff_toNat_le, UInt8.reduceToNat] at h
    simp only [utf8Length, List.cons_append, List.nil_append, List.getD_cons_zero, UInt8.le_iff_toNat_le,
      UInt8.lt_iff_toNat_lt, UInt8.reduceToNat]
    rw [if_neg (by omega), if_neg (by omega), if_neg (by omega), if_pos (by omega)]
    rfl
  · case h_2 a b =>
    obtain ⟨ha, ha', hb⟩ := h
    simp only [utf8Length, List.cons_append, List.nil_append, List.getD_cons_zero, List.getD_cons_succ,
      List.length_cons]
    rw [if_pos ⟨ha, ha'⟩, if_pos ⟨by omega, (isTail_iff b).mpr hb⟩]
    rfl
  · case h_3 a b c =>
    obtain ⟨ha, ha', hb, hc, hsecond⟩ := h
    -- the first byte tells the lengths apart
    have hnot : ¬ ((0xc2 : UInt8) ≤ a ∧ a ≤ 0xdf) := by
      simp only [UInt8.le_iff_toNat_le, UInt8.reduceToNat] at ha ⊢
      omega
    simp only [utf8Length, List.cons_append, List.nil_append, List.getD_cons_zero, List.getD_cons_succ,
      List.length_cons]
    rw [if_neg hnot, if_pos ⟨ha, ha', by omega⟩,
      if_pos ⟨secondOk3_iff.mpr ⟨hb, hsecond⟩, (isTail_iff c).mpr hc⟩]
    rfl
  · case h_4 a b c d =>
    obtain ⟨ha, ha', hb, hc, hd, hsecond⟩ := h
    have hnot : ¬ ((0xc2 : UInt8) ≤ a ∧ a ≤ 0xdf) := by
      simp only [UInt8.le_iff_toNat_le, UInt8.reduceToNat] at ha ⊢
      omega
    have hnot' : ¬ ((0xe0 : UInt8) ≤ a ∧ a ≤ 0xef ∧ 2 < t.length + 1 + 1 + 1 + 1) := by
      simp only [UInt8.le_iff_toNat_le, UInt8.reduceToNat] at ha ⊢
      omega
    simp only [utf8Length, List.cons_append, List.nil_append, List.getD_cons_zero, List.getD_cons_succ,
      List.length_cons]
    rw [if_neg hnot, if_neg hnot', if_pos ⟨ha, ha', by omega⟩,
      if_pos ⟨secondOk4_iff.mpr ⟨hb, hsecond⟩, (isTail_iff c).mpr hc, (isTail_iff d).mpr hd⟩]
    rfl
  · cases h

/-- What is found is a sequence. -/
theorem isSequence_take {s : Bytes} (hs : s ≠ []) (h : 0 < utf8Length s) :
    utf8Length s ≤ s.length ∧ IsSequence (s.take (utf8Length s)) := by
  unfold utf8Length at h ⊢
  dsimp only at h ⊢
  split_ifs at h ⊢ with h2 ht h3 ht h4 ht h1
  · match s, ht.1 with
    | a :: b :: s, _ => exact ⟨by simp, h2.1, h2.2, (isTail_iff b).mp ht.2⟩
  · exact absurd h (Nat.lt_irrefl 0)
  · match s, h3.2.2 with
    | a :: b :: c :: s, _ =>
      obtain ⟨hb, hsecond⟩ := secondOk3_iff.mp ht.1
      exact ⟨by simp, h3.1, h3.2.1, hb, (isTail_iff c).mp ht.2, hsecond⟩
  · exact absurd h (Nat.lt_irrefl 0)
  · match s, h4.2.2 with
    | a :: b :: c :: d :: s, _ =>
      obtain ⟨hb, hsecond⟩ := secondOk4_iff.mp ht.1
      exact ⟨by simp, h4.1, h4.2.1, hb, (isTail_iff c).mp ht.2.1, (isTail_iff d).mp ht.2.2, hsecond⟩
  · exact absurd h (Nat.lt_irrefl 0)
  · match s, hs with
    | a :: s, _ =>
      refine ⟨by simp, ?_⟩
      have ha : a < 0x80 := h1
      show a ≤ 0x7f
      simp only [UInt8.lt_iff_toNat_lt, UInt8.le_iff_toNat_le, UInt8.reduceToNat] at ha ⊢
      omega
  · exact absurd h (Nat.lt_irrefl 0)

/-! ### One piece -/

/-- The character a piece is decoded to: a byte that belongs to none becomes the one with its number. -/
def charOf : Piece → Char
  | .char c => c
  | .stray b => Char.ofNat b.toNat

/-- A byte of seven bits is a character. -/
theorem encodeChar_ofNat : ∀ ch : UInt8, ch < 0x80 →
    String.utf8EncodeChar (Char.ofNat ch.toNat) = [ch] ∧ (Char.ofNat ch.toNat).toNat = ch.toNat := by
  decide +kernel

/-- The digit of a number below 16. -/
def hexDigit (n : ℕ) : Char := Char.ofNat (kHex.getD n 0).toNat

theorem hexEscape_eq : ∀ ch : UInt8, hexEscape ch =
      encode ['\\', 'u', '0', '0', hexDigit (ch >>> 4).toNat, hexDigit (ch &&& 0x0f).toNat] ∧
    hexValue (hexDigit (ch >>> 4).toNat) = some (ch >>> 4).toNat ∧
    hexValue (hexDigit (ch &&& 0x0f).toNat) = some (ch &&& 0x0f).toNat ∧
    (ch >>> 4).toNat * 16 + (ch &&& 0x0f).toNat = ch.toNat ∧
    (hexDigit (ch >>> 4).toNat).toNat < 0x80 ∧ (hexDigit (ch &&& 0x0f).toNat).toNat < 0x80 := by
  decide +kernel

/-- What an escape is written in. -/
def Ascii (text : List Char) : Prop := ∀ c ∈ text, c.toNat < 0x80

theorem ascii_of_all {text : List Char} (h : text.all (·.toNat < 0x80) = true) : Ascii text := by
  simpa [Ascii] using h

/-- The escape of a byte by its number is read as the character with that number. -/
theorem readChar_hexEscape (ch : UInt8) : ∃ text, hexEscape ch = encode text ∧ Ascii text ∧
    ∀ after, readChar (text ++ after) = some (Char.ofNat ch.toNat, after) := by
  obtain ⟨hbytes, hhigh, hlow, hsum, hdigits⟩ := hexEscape_eq ch
  refine ⟨_, hbytes, ?_, fun after => readChar_unit ?_ ?_⟩
  · have hfront : Ascii ['\\', 'u', '0', '0'] := ascii_of_all (by decide)
    unfold Ascii at hfront ⊢
    simp only [List.forall_mem_cons] at hfront ⊢
    obtain ⟨h1, h2, h3, h4, -⟩ := hfront
    exact ⟨h1, h2, h3, h4, hdigits.1, hdigits.2, by simp⟩
  · have hzero : hexValue '0' = some 0 := by decide
    simp only [readHex, hzero, hhigh, hlow, Option.bind_eq_bind, Option.bind_some, Nat.zero_mul, Nat.zero_add]
    rewrite [hsum]
    rfl
  · have := ch.toNat_lt
    omega

/-- An escape of two characters is read as the byte it stands for. -/
theorem readChar_shortEscape {ch : UInt8} {escaped : Bytes} (h : shortEscape ch = some escaped) :
    ch < 0x80 ∧ ∃ text, escaped = encode text ∧ Ascii text ∧
      ∀ after, readChar (text ++ after) = some (Char.ofNat ch.toNat, after) := by
  unfold shortEscape at h
  split_ifs at h with h1 h2 h3 h4 h5 h6 h7
  all_goals
    obtain rfl := Option.some.inj h
    subst ch
  · exact ⟨by decide, ['\\', '"'], by decide, ascii_of_all (by decide), readChar_short rfl⟩
  · exact ⟨by decide, ['\\', '\\'], by decide, ascii_of_all (by decide), readChar_short rfl⟩
  · exact ⟨by decide, ['\\', 'b'], by decide, ascii_of_all (by decide), readChar_short rfl⟩
  · exact ⟨by decide, ['\\', 'f'], by decide, ascii_of_all (by decide), readChar_short rfl⟩
  · exact ⟨by decide, ['\\', 'n'], by decide, ascii_of_all (by decide), readChar_short rfl⟩
  · exact ⟨by decide, ['\\', 'r'], by decide, ascii_of_all (by decide), readChar_short rfl⟩
  · exact ⟨by decide, ['\\', 't'], by decide, ascii_of_all (by decide), readChar_short rfl⟩

/-- One turn of the loop: a piece off the front, and the text it is escaped to. -/
structure Stepped (data : Bytes) (piece : Piece) (text : List Char) (rest : Bytes) : Prop where
  bytes : data = piece.bytes ++ rest
  escaped : jsonEscape data = encode text ++ jsonEscape rest
  readChar : ∀ after, JsonString.readChar (text ++ after) = some (charOf piece, after)
  /-- What is no escape is the character itself. -/
  chars : ∀ c ∈ text, c = charOf piece ∨ c.toNat < 0x80
  /-- A byte is taken alone only where no character begins. -/
  stray : ∀ b, piece = .stray b → ∀ c after, data ≠ String.utf8EncodeChar c ++ after

/-- A byte of seven bits. -/
theorem Stepped.of_lt {ch : UInt8} {rest : Bytes} {text : List Char} (hch : ch < 0x80)
    (hescaped : jsonEscape (ch :: rest) = encode text ++ jsonEscape rest) (hascii : Ascii text)
    (hread : ∀ after, JsonString.readChar (text ++ after) = some (Char.ofNat ch.toNat, after)) :
    Stepped (ch :: rest) (.char (Char.ofNat ch.toNat)) text rest where
  bytes := by
    rw [Piece.bytes, (encodeChar_ofNat ch hch).1]
    rfl
  escaped := hescaped
  readChar := hread
  chars := fun c hc => .inr (hascii c hc)
  stray := by
    intro b hb
    cases hb

/-- A character of several bytes is no byte of seven bits. -/
theorem le_toNat_of_encodeChar {c : Char} {first : UInt8} {rest : Bytes}
    (h : String.utf8EncodeChar c = first :: rest) (hfirst : 0x80 ≤ first) : 0x80 ≤ c.toNat := by
  by_contra hlt
  rw [not_le] at hlt
  unfold String.utf8EncodeChar at h
  have hval : c.val.toNat ≤ 0x7f := Nat.le_of_lt_succ hlt
  dsimp only at h
  rw [if_pos hval] at h
  obtain ⟨rfl, -⟩ := List.cons.inj h
  rw [UInt8.le_iff_toNat_le, UInt8.toNat_ofNat'] at hfirst
  have : (0x80 : UInt8).toNat = 0x80 := rfl
  omega

/-- **One turn of the loop.** -/
theorem exists_stepped (ch : UInt8) (rest : Bytes) :
    ∃ piece text rest', Stepped (ch :: rest) piece text rest' := by
  cases hshort : shortEscape ch with
  | some escaped =>
    obtain ⟨hch, text, rfl, hascii, hread⟩ := readChar_shortEscape hshort
    refine ⟨_, text, rest, .of_lt hch ?_ hascii hread⟩
    rw [jsonEscape, hshort]
  | none =>
    obtain ⟨text, htext, hascii, hread⟩ := readChar_hexEscape ch
    by_cases hcontrol : ch < 0x20
    · refine ⟨_, text, rest, .of_lt (UInt8.lt_trans hcontrol (by decide)) ?_ hascii hread⟩
      rw [jsonEscape, hshort, ← htext]
      dsimp only
      rw [if_pos hcontrol]
    · by_cases hhigh : 0x80 ≤ ch
      · by_cases hlength : 0 < utf8Length (ch :: rest)
        · -- a character of several bytes
          obtain ⟨hle, hsequence⟩ := isSequence_take (List.cons_ne_nil ch rest) hlength
          obtain ⟨c, hc⟩ := isSequence_iff.mp hsequence
          obtain ⟨n, hn⟩ := Nat.exists_eq_add_one_of_ne_zero hlength.ne'
          refine ⟨.char c, [c], rest.drop n, ?_, ?_, ?_, by simp [charOf], ?_⟩
          · rw [Piece.bytes, hc, hn, List.take_succ_cons, List.cons_append, List.take_append_drop]
          · rw [jsonEscape, hshort]
            dsimp only
            rw [if_neg hcontrol, if_pos hhigh, if_pos hlength, ← hc, hn, Nat.add_sub_cancel]
            simp [encode]
          · have hle : 0x80 ≤ c.toNat := by
              rw [hn, List.take_succ_cons] at hc
              exact le_toNat_of_encodeChar hc hhigh
            refine fun after => readChar_self ?_ ?_ (by omega) after
            · rintro rfl
              exact absurd hle (by decide)
            · rintro rfl
              exact absurd hle (by decide)
          · intro b hb
            cases hb
        · refine ⟨.stray ch, text, rest, rfl, ?_, hread, fun c hc => .inr (hascii c hc), ?_⟩
          · rw [jsonEscape, hshort, ← htext]
            dsimp only
            rw [if_neg hcontrol, if_pos hhigh, if_neg hlength]
          · intro b _ c after heq
            have hlen := utf8Length_of_isSequence (isSequence_encodeChar c) after
            rw [← heq] at hlen
            have hpos := List.length_pos_of_ne_nil (@String.utf8EncodeChar_ne_nil c)
            omega
      · -- a byte that stands for itself
        have hch : ch < 0x80 := UInt8.not_le.mp hhigh
        obtain ⟨hbytes, hnat⟩ := encodeChar_ofNat ch hch
        have hascii : Ascii [Char.ofNat ch.toNat] := by
          unfold Ascii
          simpa [hnat] using UInt8.lt_iff_toNat_lt.mp hch
        refine ⟨_, [Char.ofNat ch.toNat], rest, .of_lt hch ?_ hascii ?_⟩
        · rw [jsonEscape, hshort]
          dsimp only
          rw [if_neg hcontrol, if_neg hhigh]
          simp [encode, hbytes]
        · have hle : 0x20 ≤ ch.toNat := by
            rw [UInt8.not_lt, UInt8.le_iff_toNat_le] at hcontrol
            exact hcontrol
          -- the quote and the backslash have an escape of their own
          have hown : ∀ c : UInt8, (shortEscape c).isSome = true → ch ≠ c := by
            rintro c hc rfl
            rw [hshort] at hc
            cases hc
          refine fun after => readChar_self ?_ ?_ (by omega) after
          · intro hquote
            rw [hquote] at hnat
            exact hown 34 rfl (UInt8.toNat_inj.mp hnat.symm)
          · intro hbackslash
            rw [hbackslash] at hnat
            exact hown 92 rfl (UInt8.toNat_inj.mp hnat.symm)

/-! ### All bytes -/

/-- The loop goes over the bytes piece by piece. -/
theorem exists_isReading (data : Bytes) : ∃ pieces text, IsReading data pieces ∧
    jsonEscape data = encode text ∧ unescape text = some (pieces.map charOf) ∧
    ∀ c ∈ text, c ∈ pieces.map charOf ∨ c.toNat < 0x80 := by
  -- the induction is on the bytes that are left; a piece has one at least
  induction hn : data.length using Nat.strong_induction_on generalizing data with
  | _ n ih =>
    cases data with
    | nil => exact ⟨[], [], isReading_nil, by rw [jsonEscape]; rfl, rfl, by simp⟩
    | cons ch rest =>
      obtain ⟨piece, text, rest', hstep⟩ := exists_stepped ch rest
      have hlt : rest'.length < n := by
        have hpos : 0 < piece.bytes.length := by
          cases piece with
          | char c => exact List.length_pos_of_ne_nil String.utf8EncodeChar_ne_nil
          | stray b => exact Nat.one_pos
        rw [← hn, hstep.bytes, List.length_append]
        omega
      obtain ⟨pieces, text', hreading, hescaped, hunescape, hchars⟩ := ih _ hlt rest' rfl
      refine ⟨piece :: pieces, text ++ text', ?_, ?_, ?_, ?_⟩
      · rw [hstep.bytes]
        cases piece with
        | char c => exact hreading.char c
        | stray b =>
          refine hreading.stray_cons fun c after => ?_
          have hbytes : ch :: rest = b :: rest' := hstep.bytes
          rw [← hbytes]
          exact hstep.stray b rfl c after
      · rw [hstep.escaped, hescaped, encode_append]
      -- the reader takes the text of this piece, and the others follow
      · refine unescape_readChar (hstep.readChar text') ?_ hunescape
        have hne : text ≠ [] := by
          rintro rfl
          have hread := hstep.readChar []
          cases hread
        rw [List.length_append]
        have := List.length_pos_of_ne_nil hne
        omega
      · intro c hc
        rw [List.map_cons]
        rcases List.mem_append.mp hc with hc | hc
        · exact (hstep.chars c hc).imp_left fun h => List.mem_cons.mpr (.inl h)
        · exact (hchars c hc).imp_left (List.mem_cons_of_mem _)

/-- **The escaped body is read back.**  Its bytes are UTF-8 and the body of a JSON string; a byte that is
part of no character is read as the character with its number, and the characters are read as they are.
So a text is read as itself. -/
theorem decode_jsonEscape (data : Bytes) :
    (Utf8.decode (jsonEscape data)).isSome = true ∧
    (∃ pieces, IsReading data pieces ∧ JsonString.decode (jsonEscape data) = some (pieces.map charOf)) ∧
    ∀ cs, data = encode cs → (JsonString.decode (jsonEscape data)).map encode = some data := by
  obtain ⟨pieces, text, hreading, hescaped, hunescape, -⟩ := exists_isReading data
  have hutf8 : Utf8.decode (jsonEscape data) = some text := decode_eq_some_iff.mpr hescaped
  have hdecode : JsonString.decode (jsonEscape data) = some (pieces.map charOf) := by
    rw [JsonString.decode, hutf8, Option.bind_some, hunescape]
  refine ⟨by rw [hutf8]; rfl, ⟨pieces, hreading, hdecode⟩, fun cs hcs => ?_⟩
  have hpieces : pieces = cs.map .char := (hcs ▸ hreading).eq_of_encode
  have hchars : (cs.map Piece.char).map charOf = cs := by
    rw [List.map_map]
    exact List.map_id cs
  rw [hdecode, hpieces, hchars, Option.map_some, hcs]

end Jni

end AsterNet
