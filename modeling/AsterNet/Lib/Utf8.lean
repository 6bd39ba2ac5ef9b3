import AsterNet.Lib.ByteString

/-!
# UTF-8

`encode` and `decode` are those of the language, over lists of bytes.  `isSequence_iff` describes the
encodings of single characters by the ranges of their bytes: the second byte has a range of its own
behind `E0`, `ED`, `F0` and `F4`.

A character is found wherever it stands: two encodings at one place are the same
(`eq_of_encodeChar_append`), and none begins inside another one (`append_ne_of_inside`).  So any bytes can
be read as characters and the bytes that belong to none (`IsReading`), piece after piece.
-/

namespace Utf8

open ByteString

/-- The bytes of a text. -/
def encode (cs : List Char) : Bytes := cs.flatMap String.utf8EncodeChar

/-- The text of well-formed bytes. -/
def decode (s : Bytes) : Option (List Char) := s.toByteArray.utf8Decode?.map Array.toList

theorem encode_cons (c : Char) (cs : List Char) : encode (c :: cs) = String.utf8EncodeChar c ++ encode cs :=
  rfl

theorem encode_append (cs cs' : List Char) : encode (cs ++ cs') = encode cs ++ encode cs' :=
  List.flatMap_append

theorem decode_eq_some_iff {s : Bytes} {cs : List Char} : decode s = some cs ↔ s = encode cs := by
  unfold decode
  constructor
  · intro h
    obtain ⟨text, hdecode, rfl⟩ := Option.map_eq_some_iff.mp h
    have hsome : s.toByteArray.utf8Decode?.isSome := by rw [hdecode]; rfl
    have hencode := @ByteArray.utf8Encode_get_utf8Decode? s.toByteArray hsome
    simp only [hdecode, Option.get_some] at hencode
    exact (List.toByteArray_inj.mp hencode).symm
  · rintro rfl
    have hencode : (encode cs).toByteArray = cs.utf8Encode := rfl
    rw [hencode, List.utf8Decode?_utf8Encode]
    rfl

/-! ### The bytes of one character -/

/-- `80` to `BF`. -/
def IsContinuation (b : UInt8) : Prop := 0x80 ≤ b ∧ b ≤ 0xbf

/-- The encoding of one character, by the ranges of its bytes. -/
def IsSequence : Bytes → Prop
  | [a] => a ≤ 0x7f
  | [a, b] => 0xc2 ≤ a ∧ a ≤ 0xdf ∧ IsContinuation b
  | [a, b, c] => 0xe0 ≤ a ∧ a ≤ 0xef ∧ IsContinuation b ∧ IsContinuation c ∧
      (a = 0xe0 → 0xa0 ≤ b) ∧ (a = 0xed → b ≤ 0x9f)
  | [a, b, c, d] => 0xf0 ≤ a ∧ a ≤ 0xf4 ∧ IsContinuation b ∧ IsContinuation c ∧ IsContinuation d ∧
      (a = 0xf0 → 0x90 ≤ b) ∧ (a = 0xf4 → b ≤ 0x8f)
  | _ => False

/-- The encoding of a character lies in the ranges. -/
theorem isSequence_encodeChar (c : Char) : IsSequence (String.utf8EncodeChar c) := by
  have hvalid : c.val.toNat < 0xd800 ∨ 0xdfff < c.val.toNat ∧ c.val.toNat < 0x110000 := c.valid
  unfold String.utf8EncodeChar
  dsimp only
  split_ifs with h1 h2 h3
  all_goals
    simp only [IsSequence, IsContinuation, UInt8.le_iff_toNat_le, ← UInt8.toNat_inj, UInt8.toNat_ofNat',
      UInt8.reduceToNat]
    omega

/-- Bytes in the ranges encode a character. -/
theorem exists_of_isSequence {s : Bytes} (h : IsSequence s) : ∃ c, String.utf8EncodeChar c = s := by
  unfold IsSequence at h
  split at h
  · case h_1 a =>
    simp only [UInt8.le_iff_toNat_le, UInt8.reduceToNat] at h
    have hv : a.toNat.isValidChar := .inl (by omega)
    have hval : (Char.ofNatAux _ hv).val.toNat = a.toNat := rfl
    refine ⟨Char.ofNatAux _ hv, ?_⟩
    unfold String.utf8EncodeChar
    dsimp only
    rw [hval, if_pos h, UInt8.ofNat_toNat]
  · case h_2 a b =>
    simp only [IsContinuation, UInt8.le_iff_toNat_le, UInt8.reduceToNat] at h
    have hv : ((a.toNat - 0xc0) * 64 + (b.toNat - 0x80)).isValidChar := .inl (by omega)
    have hval : (Char.ofNatAux _ hv).val.toNat = (a.toNat - 0xc0) * 64 + (b.toNat - 0x80) := rfl
    refine ⟨Char.ofNatAux _ hv, ?_⟩
    unfold String.utf8EncodeChar
    dsimp only
    rw [hval, if_neg (by omega), if_pos (by omega)]
    simp only [List.cons.injEq, ← UInt8.toNat_inj, UInt8.toNat_ofNat', and_true]
    omega
  · case h_3 a b c =>
    simp only [IsContinuation, UInt8.le_iff_toNat_le, ← UInt8.toNat_inj, UInt8.reduceToNat] at h
    have hv : ((a.toNat - 0xe0) * 4096 + (b.toNat - 0x80) * 64 + (c.toNat - 0x80)).isValidChar := by
      unfold Nat.isValidChar
      omega
    have hval : (Char.ofNatAux _ hv).val.toNat =
        (a.toNat - 0xe0) * 4096 + (b.toNat - 0x80) * 64 + (c.toNat - 0x80) := rfl
    refine ⟨Char.ofNatAux _ hv, ?_⟩
    unfold String.utf8EncodeChar
    dsimp only
    rw [hval, if_neg (by omega), if_neg (by omega), if_pos (by omega)]
    simp only [List.cons.injEq, ← UInt8.toNat_inj, UInt8.toNat_ofNat', and_true]
    omega
  · case h_4 a b c d =>
    simp only [IsContinuation, UInt8.le_iff_toNat_le, ← UInt8.toNat_inj, UInt8.reduceToNat] at h
    have hv : ((a.toNat - 0xf0) * 262144 + (b.toNat - 0x80) * 4096 + (c.toNat - 0x80) * 64 +
        (d.toNat - 0x80)).isValidChar := by
      unfold Nat.isValidChar
      omega
    have hval : (Char.ofNatAux _ hv).val.toNat = (a.toNat - 0xf0) * 262144 + (b.toNat - 0x80) * 4096 +
        (c.toNat - 0x80) * 64 + (d.toNat - 0x80) := rfl
    refine ⟨Char.ofNatAux _ hv, ?_⟩
    unfold String.utf8EncodeChar
    dsimp only
    rw [hval, if_neg (by omega), if_neg (by omega), if_neg (by omega)]
    simp only [List.cons.injEq, ← UInt8.toNat_inj, UInt8.toNat_ofNat', and_true]
    omega
  · cases h

/-- **The encodings of single characters**, by the ranges of their bytes. -/
theorem isSequence_iff {s : Bytes} : IsSequence s ↔ ∃ c, String.utf8EncodeChar c = s := by
  constructor
  · exact exists_of_isSequence
  · rintro ⟨c, rfl⟩
    exact isSequence_encodeChar c

/-- A character beyond the first plane is one of four bytes, of which the first is `F0` at least. -/
theorem forall_lt_encodeChar_iff {c : Char} : (∀ b ∈ String.utf8EncodeChar c, b < 0xf0) ↔ c.toNat < 0x10000 := by
  have hvalid : c.val.toNat < 0xd800 ∨ 0xdfff < c.val.toNat ∧ c.val.toNat < 0x110000 := c.valid
  have hnat : c.toNat = c.val.toNat := rfl
  rw [hnat]
  unfold String.utf8EncodeChar
  dsimp only
  split_ifs with h1 h2 h3
  all_goals
    simp only [List.forall_mem_cons, List.not_mem_nil, IsEmpty.forall_iff, implies_true, and_true, UInt8.lt_iff_toNat_lt,
      UInt8.toNat_ofNat', UInt8.reduceToNat]
    omega

theorem forall_lt_encode_iff {cs : List Char} : (∀ b ∈ encode cs, b < 0xf0) ↔ ∀ c ∈ cs, c.toNat < 0x10000 := by
  simp only [encode, List.mem_flatMap, forall_exists_index, and_imp, ← forall_lt_encodeChar_iff]
  exact ⟨fun h c hc b hb => h b c hc hb, fun h b c hc hb => h c hc b hb⟩
/-! ### Where characters stand -/

/-- Two encodings at the front of the same bytes are the same. -/
theorem eq_of_encodeChar_append {c c' : Char} {s s' : Bytes}
    (h : String.utf8EncodeChar c ++ s = String.utf8EncodeChar c' ++ s') : c = c' ∧ s = s' := by
  have hdecode := @ByteArray.utf8DecodeChar?_utf8EncodeChar_append s.toByteArray c
  rw [← List.toByteArray_append, h, List.toByteArray_append,
    ByteArray.utf8DecodeChar?_utf8EncodeChar_append] at hdecode
  obtain rfl := Option.some.inj hdecode
  exact ⟨rfl, List.append_cancel_left h⟩

/-- Behind the first byte of a character there are continuation bytes only, and the first is none. -/
theorem encodeChar_eq_cons (c : Char) : ∃ first rest, String.utf8EncodeChar c = first :: rest ∧
    ¬ IsContinuation first ∧ ∀ b ∈ rest, IsContinuation b := by
  have h := isSequence_encodeChar c
  have hfirst : ∀ a : UInt8, a ≤ 0x7f ∨ 0xc2 ≤ a → ¬ IsContinuation a := by
    intro a ha
    simp only [IsContinuation, UInt8.le_iff_toNat_le, UInt8.reduceToNat] at ha ⊢
    omega
  have hlead : ∀ {a b : UInt8}, (0xc2 : UInt8) ≤ a → a ≤ b → (0xc2 : UInt8) ≤ b := UInt8.le_trans
  unfold IsSequence at h
  split at h
  · case h_1 a heq => exact ⟨a, [], heq, hfirst a (.inl h), by simp⟩
  · case h_2 a b heq => exact ⟨a, [b], heq, hfirst a (.inr h.1), by simpa using h.2.2⟩
  · case h_3 a b c heq =>
    obtain ⟨ha, -, hb, hc, -⟩ := h
    exact ⟨a, [b, c], heq, hfirst a (.inr (hlead (by decide) ha)), by simp [hb, hc]⟩
  · case h_4 a b c d heq =>
    obtain ⟨ha, -, hb, hc, hd, -⟩ := h
    exact ⟨a, [b, c, d], heq, hfirst a (.inr (hlead (by decide) ha)), by simp [hb, hc, hd]⟩
  · cases h

/-- No character begins inside another one. -/
theorem append_ne_of_inside {c c' : Char} {front back s s' : Bytes}
    (h : String.utf8EncodeChar c = front ++ back) (hfront : front ≠ []) (hback : back ≠ []) :
    back ++ s ≠ String.utf8EncodeChar c' ++ s' := by
  intro heq
  obtain ⟨first, rest, hc, -, hrest⟩ := encodeChar_eq_cons c
  obtain ⟨first', rest', hc', hfirst', -⟩ := encodeChar_eq_cons c'
  obtain ⟨x, front, rfl⟩ := List.exists_cons_of_ne_nil hfront
  obtain ⟨y, back, rfl⟩ := List.exists_cons_of_ne_nil hback
  rw [hc, List.cons_append] at h
  rw [hc', List.cons_append, List.cons_append] at heq
  obtain rfl := (List.cons.inj heq).1
  refine hfirst' (hrest y ?_)
  rw [(List.cons.inj h).2]
  simp

/-! ### Reading any bytes -/

/-- The byte at this position is part of the encoding of a character. -/
def Covered (s : Bytes) (i : ℕ) : Prop :=
  ∃ before c after, s = before ++ (String.utf8EncodeChar c ++ after) ∧ before.length ≤ i ∧
    i < before.length + (String.utf8EncodeChar c).length

/-- What bytes are read as: characters, and bytes that belong to none. -/
inductive Piece
  | char (c : Char)
  | stray (b : UInt8)
  deriving DecidableEq, Repr

/-- The bytes of a piece. -/
def Piece.bytes : Piece → Bytes
  | .char c => String.utf8EncodeChar c
  | .stray b => [b]

/-- The bytes are read as these pieces, and only what belongs to no character is read as a byte. -/
structure IsReading (s : Bytes) (pieces : List Piece) : Prop where
  bytes : pieces.flatMap Piece.bytes = s
  stray : ∀ before b after, pieces = before ++ .stray b :: after →
    ¬ Covered s (before.flatMap Piece.bytes).length

theorem isReading_nil : IsReading [] [] := by
  refine ⟨rfl, fun before b after h => ?_⟩
  simp at h

/-- A position behind the front is covered by what follows, unless a character reaches over. -/
theorem covered_of_append {front s : Bytes} {i : ℕ} (h : Covered (front ++ s) (front.length + i))
    (hfront : ∀ before c after, front ++ s = before ++ (String.utf8EncodeChar c ++ after) →
      before.length < front.length → before.length + (String.utf8EncodeChar c).length ≤ front.length) :
    Covered s i := by
  obtain ⟨before, c, after, heq, hle, hlt⟩ := h
  rcases Nat.lt_or_ge before.length front.length with hin | hout
  · have := hfront before c after heq hin
    omega
  · obtain ⟨rest, rfl⟩ : front <+: before :=
      List.prefix_of_prefix_length_le ⟨s, rfl⟩ ⟨_, heq.symm⟩ hout
    rw [List.append_assoc] at heq
    rw [List.length_append] at hle hlt
    exact ⟨rest, c, after, List.append_cancel_left heq, by omega, by omega⟩

/-- A character, then what follows it. -/
theorem IsReading.char {s : Bytes} {pieces : List Piece} (h : IsReading s pieces) (c : Char) :
    IsReading (String.utf8EncodeChar c ++ s) (.char c :: pieces) := by
  refine ⟨?_, fun before b after heq hcovered => ?_⟩
  · rw [List.flatMap_cons, h.bytes]
    rfl
  · cases before with
    | nil => cases heq
    | cons piece before =>
      obtain ⟨rfl, hpieces⟩ := List.cons.inj heq
      rw [List.flatMap_cons, List.length_append] at hcovered
      refine h.stray before b after hpieces (covered_of_append hcovered fun before' c' after' hs hlt => ?_)
      -- a character that begins here is this one
      cases before' with
      | nil =>
        obtain ⟨rfl, -⟩ := eq_of_encodeChar_append hs
        exact Nat.le_of_eq (Nat.zero_add _)
      | cons x before' =>
        obtain ⟨back, hback⟩ : x :: before' <+: String.utf8EncodeChar c :=
          List.prefix_of_prefix_length_le ⟨_, hs.symm⟩ ⟨s, rfl⟩ hlt.le
        rw [← hback, List.append_assoc] at hs
        have hne : back ≠ [] := by
          rintro rfl
          rw [List.append_nil] at hback
          rw [hback] at hlt
          exact absurd hlt (lt_irrefl _)
        exact absurd (List.append_cancel_left hs) (append_ne_of_inside hback.symm (by simp) hne)

/-- A byte with which no character begins, then what follows it. -/
theorem IsReading.stray_cons {s : Bytes} {pieces : List Piece} (h : IsReading s pieces) {b : UInt8}
    (hb : ∀ c after, b :: s ≠ String.utf8EncodeChar c ++ after) :
    IsReading (b :: s) (.stray b :: pieces) := by
  refine ⟨?_, fun before b' after heq hcovered => ?_⟩
  · rw [List.flatMap_cons, h.bytes]
    rfl
  · cases before with
    | nil =>
      obtain ⟨before', c, after', hs, hle, -⟩ := hcovered
      obtain rfl := List.eq_nil_of_length_eq_zero (Nat.le_zero.mp hle)
      exact hb c after' hs
    | cons piece before =>
      obtain ⟨rfl, hpieces⟩ := List.cons.inj heq
      rw [List.flatMap_cons, List.length_append] at hcovered
      refine h.stray before b' after hpieces
        (@covered_of_append [b] s _ hcovered fun before' c' after' hs hlt => ?_)
      obtain rfl := List.eq_nil_of_length_eq_zero (Nat.lt_one_iff.mp hlt)
      exact absurd hs (hb c' after')

/-- Every byte of a text is part of a character. -/
theorem covered_encode {cs : List Char} {i : ℕ} (h : i < (encode cs).length) : Covered (encode cs) i := by
  induction cs generalizing i with
  | nil => cases h
  | cons c cs ih =>
    rw [encode_cons] at h ⊢
    rcases Nat.lt_or_ge i (String.utf8EncodeChar c).length with hin | hout
    · exact ⟨[], c, encode cs, rfl, Nat.zero_le _, by simpa using hin⟩
    · rw [List.length_append] at h
      obtain ⟨before, c', after, hs, hle, hlt⟩ :=
        @ih (i - (String.utf8EncodeChar c).length) (by omega)
      refine ⟨String.utf8EncodeChar c ++ before, c', after, ?_, ?_, ?_⟩
      · rw [hs, List.append_assoc]
      · rw [List.length_append]
        omega
      · rw [List.length_append]
        omega

/-- A text is read as its characters. -/
theorem IsReading.eq_of_encode {cs : List Char} {pieces : List Piece} (h : IsReading (encode cs) pieces) :
    pieces = cs.map .char := by
  have hchars : ∀ piece ∈ pieces, ∃ c, piece = .char c := by
    intro piece hmem
    cases piece with
    | char c => exact ⟨c, rfl⟩
    | stray b =>
      obtain ⟨before, after, hpieces⟩ := List.append_of_mem hmem
      refine absurd (covered_encode ?_) (h.stray before b after hpieces)
      have hone : (Piece.stray b).bytes.length = 1 := rfl
      rw [← h.bytes, hpieces, List.flatMap_append, List.flatMap_cons, List.length_append, List.length_append,
        hone]
      omega
  obtain ⟨cs', rfl⟩ : ∃ cs' : List Char, pieces = cs'.map .char := by
    clear h
    induction pieces with
    | nil => exact ⟨[], rfl⟩
    | cons piece pieces ih =>
      obtain ⟨c, rfl⟩ := hchars piece List.mem_cons_self
      obtain ⟨cs', rfl⟩ := ih fun piece hmem => hchars piece (List.mem_cons_of_mem _ hmem)
      exact ⟨c :: cs', rfl⟩
  have hbytes : encode cs' = encode cs := by
    rw [← h.bytes, List.flatMap_map]
    rfl
  have hdecode := decode_eq_some_iff.mpr hbytes
  rw [decode_eq_some_iff.mpr rfl] at hdecode
  rw [Option.some.inj hdecode]

end Utf8
