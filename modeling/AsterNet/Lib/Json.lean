import AsterNet.Lib.JsonString
import AsterNet.Lib.Numeral

/-!
# JSON texts

`read` is a strict reader of JSON texts without white space between the tokens: UTF-8 first, then the
values, the numbers as they are written.  `Reads v t` says that the reader finds the value `v` wherever the
text `t` stands, and there is one rule for each kind of value in use: `reads_number`, `reads_string` and
`reads_object`.  `read_of_reads` is for a whole text.
-/

namespace Json

open ByteString Utf8

/-- What a text says. -/
inductive Value
  | null
  | boolean (b : Bool)
  | number (text : List Char)
  | string (text : List Char)
  | array (items : List Value)
  | object (members : List (List Char × Value))

/-! ### The reader -/

/-- The fraction of a number is dropped. -/
def dropFraction : List Char → Option (List Char)
  | '.' :: s => if (s.takeWhile Char.isDigit).isEmpty then none else some (s.dropWhile Char.isDigit)
  | s => some s

/-- The exponent of a number is dropped. -/
def dropExponent : List Char → Option (List Char)
  | c :: s =>
    if c = 'e' ∨ c = 'E' then
      let s := if s.head? = some '-' ∨ s.head? = some '+' then s.tail else s
      if (s.takeWhile Char.isDigit).isEmpty then none else some (s.dropWhile Char.isDigit)
    else some (c :: s)
  | [] => some []

/-- The text is a number: no digit follows a leading zero. -/
def isNumber (s : List Char) : Bool :=
  let s := if s.head? = some '-' then s.tail else s
  let digits := s.takeWhile Char.isDigit
  (digits == ['0'] || digits.head?.any (· != '0'))
    && ((dropFraction (s.dropWhile Char.isDigit)).bind dropExponent == some [])

/-- It may stand in a number. -/
def isNumberChar (c : Char) : Bool :=
  c.isDigit || c == '-' || c == '+' || c == '.' || c == 'e' || c == 'E'

/-- The longest text at the front that may be a number. -/
def readNumber (s : List Char) : Option (Value × List Char) :=
  if isNumber (s.takeWhile isNumberChar) then
    some (.number (s.takeWhile isNumberChar), s.dropWhile isNumberChar)
  else none

/-- A string behind its first quote. -/
def readString : ℕ → List Char → Option (List Char × List Char)
  | 0, _ => none
  | fuel + 1, s =>
    if s.head? = some '"' then some ([], s.tail)
    else (JsonString.readChar s).bind fun one => (readString fuel one.2).map fun r => (one.1 :: r.1, r.2)

/-- Items behind the first bracket, of which there is one at least. -/
def readItems {α : Type} (item : List Char → Option (α × List Char)) (close : Char) :
    ℕ → List Char → Option (List α × List Char)
  | 0, _ => none
  | fuel + 1, s =>
    (item s).bind fun one =>
      match one.2 with
      | [] => none
      | c :: s =>
        if c = close then some ([one.1], s)
        else if c = ',' then (readItems item close fuel s).map fun r => (one.1 :: r.1, r.2)
        else none

/-- A member of an object. -/
def readMember (value : List Char → Option (Value × List Char)) :
    List Char → Option ((List Char × Value) × List Char)
  | '"' :: s =>
    (readString (s.length + 1) s).bind fun name =>
      if name.2.head? = some ':' then (value name.2.tail).map fun r => ((name.1, r.1), r.2) else none
  | _ => none

/-- A value, of at most this depth. -/
def readValue : ℕ → List Char → Option (Value × List Char)
  | 0, _ => none
  | _ + 1, [] => none
  | fuel + 1, c :: s =>
    if c = '{' then
      if s.head? = some '}' then some (.object [], s.tail)
      else (readItems (readMember (readValue fuel)) '}' (s.length + 1) s).map fun r => (.object r.1, r.2)
    else if c = '[' then
      if s.head? = some ']' then some (.array [], s.tail)
      else (readItems (readValue fuel) ']' (s.length + 1) s).map fun r => (.array r.1, r.2)
    else if c = '"' then (readString (s.length + 1) s).map fun r => (.string r.1, r.2)
    else if c = 't' then if s.take 3 = ['r', 'u', 'e'] then some (.boolean true, s.drop 3) else none
    else if c = 'f' then if s.take 4 = ['a', 'l', 's', 'e'] then some (.boolean false, s.drop 4) else none
    else if c = 'n' then if s.take 3 = ['u', 'l', 'l'] then some (.null, s.drop 3) else none
    else readNumber (c :: s)

/-- A whole text. -/
def read (t : Bytes) : Option Value :=
  (Utf8.decode t).bind fun s =>
    match readValue (s.length + 1) s with
    | some (v, []) => some v
    | _ => none

/-! ### Texts that say a value -/

/-- What may follow a number. -/
def Stops (s : List Char) : Prop := ∀ c ∈ s.head?, isNumberChar c = false

/-- No control characters. -/
def Printable (cs : List Char) : Prop := ∀ c ∈ cs, 0x20 ≤ c.toNat

/-- The reader finds a value in this text, whatever stops it. -/
structure ReadsChars (v : Value) (cs : List Char) : Prop where
  ne_nil : cs ≠ []
  printable : Printable cs
  head : cs.head? ≠ some ']'
  read : ∀ fuel rest, cs.length ≤ fuel → Stops rest → readValue fuel (cs ++ rest) = some (v, rest)

/-- The same of bytes. -/
def Reads (v : Value) (t : Bytes) : Prop := ∃ cs, t = encode cs ∧ ReadsChars v cs

/-- **A whole text is read as its value.** -/
theorem read_of_reads {v : Value} {t : Bytes} (h : Reads v t) : read t = some v := by
  obtain ⟨cs, rfl, hreads⟩ := h
  have hwhole := hreads.read (cs.length + 1) [] (Nat.le_succ _) (by simp [Stops])
  rw [List.append_nil] at hwhole
  rw [read, decode_eq_some_iff.mpr rfl, Option.bind_some, hwhole]

/-- A text says one thing. -/
theorem Reads.unique {v v' : Value} {t : Bytes} (h : Reads v t) (h' : Reads v' t) : v = v' :=
  Option.some.inj ((read_of_reads h).symm.trans (read_of_reads h'))

/-! ### ASCII -/

/-- The characters of ASCII bytes. -/
def chars (s : Bytes) : List Char := s.map fun b => Char.ofNat b.toNat

theorem encode_chars {s : Bytes} (h : ∀ b ∈ s, b < 0x80) : encode (chars s) = s := by
  have hchar : ∀ b : UInt8, b < 0x80 → String.utf8EncodeChar (Char.ofNat b.toNat) = [b] := by
    decide +kernel
  induction s with
  | nil => rfl
  | cons b s ih =>
    rw [chars, List.map_cons, encode_cons, hchar b (h b List.mem_cons_self)]
    rw [show encode (s.map fun b => Char.ofNat b.toNat) = s from ih fun c hc => h c (List.mem_cons_of_mem b hc)]
    rfl

/-! ### Numbers -/

theorem printable_of_numberChar {c : Char} (h : isNumberChar c = true) : 0x20 ≤ c.toNat := by
  simp only [isNumberChar, Char.isDigit, Bool.or_eq_true, Bool.and_eq_true, decide_eq_true_eq, beq_iff_eq] at h
  rcases h with ((((⟨h, -⟩ | rfl) | rfl) | rfl) | rfl) | rfl
  · have hle : 48 ≤ c.toNat := h
    omega
  all_goals decide

theorem ne_nil_of_isNumber {cs : List Char} (h : isNumber cs = true) : cs ≠ [] := by
  rintro rfl
  cases h

/-- **A number stands for itself.** -/
theorem reads_number {cs : List Char} (hnumber : isNumber cs = true) (hchars : ∀ c ∈ cs, isNumberChar c = true) :
    Reads (.number cs) (encode cs) := by
  have hne := ne_nil_of_isNumber hnumber
  obtain ⟨c, cs', rfl⟩ := List.exists_cons_of_ne_nil hne
  have hc := hchars c List.mem_cons_self
  have hother : ∀ d, isNumberChar d = false → c ≠ d := by
    rintro d hd rfl
    rw [hc] at hd
    cases hd
  refine ⟨c :: cs', rfl, hne, fun d hd => printable_of_numberChar (hchars d hd), ?_,
    fun fuel rest hfuel hstops => ?_⟩
  · simpa using hother ']' (by decide)
  obtain ⟨fuel, rfl⟩ := Nat.exists_eq_add_of_lt (Nat.lt_of_lt_of_le (List.length_pos_of_ne_nil hne) hfuel)
  have htake : (c :: cs' ++ rest).takeWhile isNumberChar = c :: cs' := by
    rw [List.takeWhile_append_of_pos hchars]
    cases rest with
    | nil => simp
    | cons d rest => simp [hstops d rfl]
  have hdrop : (c :: cs' ++ rest).dropWhile isNumberChar = rest := by
    rw [List.dropWhile_append_of_pos hchars]
    cases rest with
    | nil => rfl
    | cons d rest => simp [hstops d rfl]
  rw [List.cons_append, readValue, if_neg (hother _ (by decide)), if_neg (hother _ (by decide)),
    if_neg (hother _ (by decide)), if_neg (hother _ (by decide)), if_neg (hother _ (by decide)),
    if_neg (hother _ (by decide)), ← List.cons_append, readNumber, htake, hdrop, if_pos hnumber]

/-! ### Strings -/

theorem readHex_append {s rest : List Char} {n : ℕ} (h : JsonString.readHex s = some (n, rest)) (t : List Char) :
    JsonString.readHex (s ++ t) = some (n, rest ++ t) := by
  unfold JsonString.readHex at h
  split at h
  · case h_1 a b c d rest' =>
    simp only [Option.bind_eq_bind, Option.bind_eq_some_iff] at h
    obtain ⟨w, hw, x, hx, y, hy, z, hz, h⟩ := h
    obtain ⟨rfl, rfl⟩ := Prod.mk.inj (Option.some.inj h)
    simp [JsonString.readHex, hw, hx, hy, hz]
  · cases h

theorem readUnit_append {unit : ℕ} {s rest : List Char} {c : Char} (h : JsonString.readUnit unit s = some (c, rest))
    (t : List Char) : JsonString.readUnit unit (s ++ t) = some (c, rest ++ t) := by
  unfold JsonString.readUnit at h ⊢
  split_ifs at h ⊢ with hplain hlow
  · obtain ⟨rfl, rfl⟩ := Prod.mk.inj (Option.some.inj h)
    rfl
  · split at h
    · case h_1 rest' =>
      split at h
      · case h_1 low rest'' hlow' =>
        split_ifs at h with hrange
        obtain ⟨rfl, rfl⟩ := Prod.mk.inj (Option.some.inj h)
        split
        · case h_1 rest₁ heq =>
          obtain rfl : rest' ++ t = rest₁ := by simpa using heq
          rw [readHex_append hlow' t]
          exact if_pos hrange
        · case h_2 hother => exact (hother _ rfl).elim
      · cases h
    · cases h

/-- A character is read wherever it stands. -/
theorem readChar_append {s rest : List Char} {c : Char} (h : JsonString.readChar s = some (c, rest))
    (t : List Char) : JsonString.readChar (s ++ t) = some (c, rest ++ t) := by
  have hread := h
  unfold JsonString.readChar at h
  split at h
  · cases h
  · case h_2 rest' =>
    obtain ⟨⟨unit, rest''⟩, hhex, hunit⟩ := Option.bind_eq_some_iff.mp h
    rw [List.cons_append, List.cons_append, JsonString.readChar, readHex_append hhex t, Option.bind_some]
    exact readUnit_append hunit t
  · case h_3 e rest' _ =>
    obtain ⟨c', hshort, heq⟩ := Option.map_eq_some_iff.mp h
    obtain ⟨rfl, rfl⟩ := Prod.mk.inj heq
    exact JsonString.readChar_short hshort _
  · case h_4 e rest' _ _ =>
    split_ifs at h with hbad
    obtain ⟨rfl, rfl⟩ := Prod.mk.inj (Option.some.inj h)
    rw [not_or, not_or, not_lt] at hbad
    exact JsonString.readChar_self hbad.1 hbad.2.1 hbad.2.2 _

/-- What makes up a character has no control characters. -/
theorem printable_of_readHex {s rest : List Char} {n : ℕ} (h : JsonString.readHex s = some (n, rest)) :
    ∃ front, s = front ++ rest ∧ Printable front := by
  have hdigit : ∀ {c : Char} {v : ℕ}, JsonString.hexValue c = some v → 0x20 ≤ c.toNat := by
    intro c v hv
    unfold JsonString.hexValue at hv
    split_ifs at hv with hten hlow hup
    · have hle : 48 ≤ c.toNat := hten.1
      omega
    · have hle : 97 ≤ c.toNat := hlow.1
      omega
    · have hle : 65 ≤ c.toNat := hup.1
      omega
  unfold JsonString.readHex at h
  split at h
  · case h_1 a b c d rest' =>
    simp only [Option.bind_eq_bind, Option.bind_eq_some_iff] at h
    obtain ⟨w, hw, x, hx, y, hy, z, hz, h⟩ := h
    obtain ⟨-, rfl⟩ := Prod.mk.inj (Option.some.inj h)
    exact ⟨[a, b, c, d], rfl, by simp [Printable, hdigit hw, hdigit hx, hdigit hy, hdigit hz]⟩
  · cases h

theorem printable_of_readChar {s rest : List Char} {c : Char} (h : JsonString.readChar s = some (c, rest)) :
    ∃ front, s = front ++ rest ∧ Printable front := by
  unfold JsonString.readChar at h
  split at h
  · cases h
  · case h_2 rest' =>
    obtain ⟨⟨unit, rest''⟩, hhex, hunit⟩ := Option.bind_eq_some_iff.mp h
    obtain ⟨front, rfl, hfront⟩ := printable_of_readHex hhex
    unfold JsonString.readUnit at hunit
    split_ifs at hunit with hplain hlow
    · obtain ⟨-, rfl⟩ := Prod.mk.inj (Option.some.inj hunit)
      exact ⟨'\\' :: 'u' :: front, rfl, by simpa [Printable] using hfront⟩
    · dsimp only at hunit
      split at hunit
      · case h_1 rest₁ =>
        split at hunit
        · case h_1 low rest₂ hlow' =>
          obtain ⟨front', rfl, hfront'⟩ := printable_of_readHex hlow'
          split_ifs at hunit
          obtain ⟨-, rfl⟩ := Prod.mk.inj (Option.some.inj hunit)
          refine ⟨'\\' :: 'u' :: (front ++ '\\' :: 'u' :: front'), by simp, ?_⟩
          simpa [Printable, or_imp, forall_and] using ⟨hfront, hfront'⟩
        · cases hunit
      · cases hunit
  · case h_3 e rest' _ =>
    obtain ⟨c', hshort, heq⟩ := Option.map_eq_some_iff.mp h
    obtain ⟨-, rfl⟩ := Prod.mk.inj heq
    refine ⟨['\\', e], rfl, ?_⟩
    unfold JsonString.shortEscape at hshort
    split at hshort <;> first | contradiction | simp [Printable]
  · case h_4 e rest' _ _ =>
    split_ifs at h with hbad
    obtain ⟨-, rfl⟩ := Prod.mk.inj (Option.some.inj h)
    rw [not_or, not_or, not_lt] at hbad
    exact ⟨[e], rfl, by simpa [Printable] using hbad.2.2⟩

theorem printable_of_unescapeIn {n : ℕ} {s cs : List Char} (h : JsonString.unescapeIn n s = some cs) :
    Printable s := by
  induction n generalizing s cs with
  | zero =>
    cases s with
    | nil => exact fun c hc => by cases hc
    | cons c s => cases h
  | succ n ih =>
    cases s with
    | nil => exact fun c hc => by cases hc
    | cons c s =>
      rw [JsonString.unescapeIn, Option.bind_eq_some_iff] at h
      obtain ⟨⟨d, s'⟩, hchar, h⟩ := h
      obtain ⟨cs, hcs, rfl⟩ := Option.map_eq_some_iff.mp h
      obtain ⟨front, heq, hfront⟩ := printable_of_readChar hchar
      rw [heq]
      intro e he
      rcases List.mem_append.mp he with he | he
      · exact hfront e he
      · exact ih hcs e he

theorem printable_of_unescape {s cs : List Char} (h : JsonString.unescape s = some cs) : Printable s :=
  printable_of_unescapeIn h

theorem readChar_quote (s : List Char) : JsonString.readChar ('"' :: s) = none := by
  unfold JsonString.readChar
  simp

/-- The body of a string, up to its quote. -/
theorem readString_append {n fuel : ℕ} {s cs rest : List Char} (h : JsonString.unescapeIn n s = some cs)
    (hfuel : n < fuel) : readString fuel (s ++ '"' :: rest) = some (cs, rest) := by
  induction n generalizing fuel s cs with
  | zero =>
    obtain ⟨fuel, rfl⟩ := Nat.exists_eq_add_of_lt hfuel
    cases s with
    | nil =>
      obtain rfl := Option.some.inj h
      simp [readString]
    | cons c s => cases h
  | succ n ih =>
    obtain ⟨fuel, rfl⟩ := Nat.exists_eq_add_of_lt hfuel
    cases s with
    | nil =>
      obtain rfl := Option.some.inj h
      simp [readString]
    | cons c s =>
      rw [JsonString.unescapeIn, Option.bind_eq_some_iff] at h
      obtain ⟨⟨d, s'⟩, hchar, h⟩ := h
      obtain ⟨cs, hcs, rfl⟩ := Option.map_eq_some_iff.mp h
      have hquote : c ≠ '"' := by
        rintro rfl
        rw [readChar_quote] at hchar
        cases hchar
      rw [readString, if_neg (by simpa using hquote), readChar_append hchar, Option.bind_some,
        ih hcs (by omega), Option.map_some]

/-- **A string stands for what its body says.** -/
theorem reads_string {body : Bytes} {cs : List Char} (h : JsonString.decode body = some cs) :
    Reads (.string cs) (34 :: (body ++ [34])) := by
  obtain ⟨s, hs, hunescape⟩ := Option.bind_eq_some_iff.mp h
  obtain rfl := decode_eq_some_iff.mp hs
  refine ⟨'"' :: (s ++ ['"']), ?_, by simp, ?_, by simp, fun fuel rest hfuel _ => ?_⟩
  · rw [encode_cons, encode_append]
    rfl
  · simpa [Printable, or_imp, forall_and] using printable_of_unescape hunescape
  · have hpos : 0 < fuel := Nat.lt_of_lt_of_le (Nat.succ_pos _) hfuel
    obtain ⟨fuel, rfl⟩ := Nat.exists_eq_add_of_lt hpos
    rw [List.cons_append, readValue, if_neg (by decide), if_neg (by decide), if_pos rfl, List.append_assoc,
      List.singleton_append, readString_append hunescape (by simp), Option.map_some]

/-! ### Arrays and objects -/

/-- Pieces with a separator between them. -/
def separate {α : Type} (sep : α) : List (List α) → List α
  | [] => []
  | [s] => s
  | s :: t :: ss => s ++ sep :: separate sep (t :: ss)

theorem encode_separate (css : List (List Char)) :
    encode (separate ',' css) = separate 44 (css.map encode) := by
  induction css with
  | nil => rfl
  | cons cs css ih =>
    cases css with
    | nil => rfl
    | cons cs' css =>
      rw [separate, encode_append, encode_cons, ih]
      rfl

theorem length_le_separate {α : Type} (sep : α) {s : List α} {ss : List (List α)} (h : s ∈ ss) :
    s.length ≤ (separate sep ss).length := by
  induction ss with
  | nil => cases h
  | cons s' ss ih =>
    cases ss with
    | nil =>
      obtain rfl := List.mem_singleton.mp h
      exact le_refl _
    | cons t ss =>
      rw [separate, List.length_append, List.length_cons]
      rcases List.mem_cons.mp h with rfl | h
      · omega
      · have := ih h
        omega

theorem mem_separate {α : Type} {sep x : α} {ss : List (List α)} (h : x ∈ separate sep ss) :
    x = sep ∨ ∃ s ∈ ss, x ∈ s := by
  induction ss with
  | nil => cases h
  | cons s ss ih =>
    cases ss with
    | nil => exact .inr ⟨s, List.mem_cons_self, h⟩
    | cons t ss =>
      rw [separate, List.mem_append, List.mem_cons] at h
      rcases h with h | rfl | h
      · exact .inr ⟨s, List.mem_cons_self, h⟩
      · exact .inl rfl
      · rcases ih h with hsep | ⟨s', hs', hx⟩
        · exact .inl hsep
        · exact .inr ⟨s', List.mem_cons_of_mem s hs', hx⟩

/-- Printable pieces between printable brackets. -/
theorem printable_enclosed {opening close : Char} {css : List (List Char)} (hopen : 0x20 ≤ opening.toNat)
    (hclose : 0x20 ≤ close.toNat) (h : ∀ cs ∈ css, Printable cs) :
    Printable (opening :: (separate ',' css ++ [close])) := by
  intro c hc
  rcases List.mem_cons.mp hc with rfl | hc
  · exact hopen
  rcases List.mem_append.mp hc with hc | hc
  · rcases mem_separate hc with rfl | ⟨cs, hcs, hc⟩
    · decide
    · exact h cs hcs c hc
  · obtain rfl := List.mem_singleton.mp hc
    exact hclose

/-- There are no more pieces than characters, when none is empty. -/
theorem length_le_length_separate {α : Type} (sep : α) {ss : List (List α)} (h : ∀ s ∈ ss, s ≠ []) :
    ss.length ≤ (separate sep ss).length := by
  induction ss with
  | nil => exact le_refl _
  | cons s ss ih =>
    have hpos := List.length_pos_of_ne_nil (h s List.mem_cons_self)
    cases ss with
    | nil => exact hpos
    | cons t ss =>
      have hle := ih fun s' hs' => h s' (List.mem_cons_of_mem s hs')
      rw [separate]
      simp only [List.length_append, List.length_cons] at hle ⊢
      omega

/-- An item is found where it stands before a comma or the bracket. -/
def Finds {α : Type} (item : List Char → Option (α × List Char)) (close : Char) (x : α) (cs : List Char) :
    Prop :=
  ∀ c rest, c = close ∨ c = ',' → item (cs ++ c :: rest) = some (x, c :: rest)

/-- **The items are found one after the other.** -/
theorem readItems_separate {α : Type} {item : List Char → Option (α × List Char)} {close : Char}
    (hclose : close ≠ ',') {xs : List α} {css : List (List Char)} (h : List.Forall₂ (Finds item close) xs css)
    (hne : css ≠ []) {fuel : ℕ} (hfuel : css.length ≤ fuel) (rest : List Char) :
    readItems item close fuel (separate ',' css ++ close :: rest) = some (xs, rest) := by
  induction h generalizing fuel with
  | nil => exact absurd rfl hne
  | @cons x cs xs css hx hxs ih =>
    obtain ⟨fuel, rfl⟩ := Nat.exists_eq_add_of_lt (Nat.lt_of_lt_of_le (Nat.succ_pos _) hfuel)
    cases hxs with
    | nil => simp [separate, readItems, hx close rest (.inl rfl)]
    | @cons x' cs' xs css hx' hxs =>
      have hrest := @ih (by simp) (0 + fuel) (by simp at hfuel ⊢; omega)
      rw [separate, List.append_assoc, List.cons_append, readItems, hx ',' _ (.inr rfl), Option.bind_some]
      dsimp only
      rw [if_neg hclose.symm, if_pos rfl, hrest, Option.map_some]

/-- The text of a member of an object. -/
def memberText (m : Bytes × Bytes) : Bytes := 34 :: (m.1 ++ 34 :: 58 :: m.2)

/-- The text of an object. -/
def objectText (ms : List (Bytes × Bytes)) : Bytes := 123 :: (separate 44 (ms.map memberText) ++ [125])

/-- What holds of the punctuation and of the members holds of the text of an object. -/
theorem forall_mem_objectText {p : UInt8 → Prop} (hp : ∀ b ∈ [123, 125, 34, 58, 44], p b) {ts : List (Bytes × Bytes)}
    (h : ∀ t ∈ ts, (∀ b ∈ t.1, p b) ∧ ∀ b ∈ t.2, p b) : ∀ b ∈ objectText ts, p b := by
  simp only [List.forall_mem_cons] at hp
  obtain ⟨hopen, hclose, hquote, hcolon, hcomma, -⟩ := hp
  intro b hb
  simp only [objectText, List.mem_cons, List.mem_append, List.not_mem_nil, or_false] at hb
  rcases hb with rfl | hb | rfl
  · exact hopen
  · rcases mem_separate hb with rfl | ⟨s, hs, hb⟩
    · exact hcomma
    · obtain ⟨t, ht, rfl⟩ := List.mem_map.mp hs
      simp only [memberText, List.mem_cons, List.mem_append] at hb
      rcases hb with rfl | hb | rfl | rfl | hb
      · exact hquote
      · exact (h t ht).1 b hb
      · exact hquote
      · exact hcolon
      · exact (h t ht).2 b hb
  · exact hclose
theorem stops_of_separator {c : Char} {rest : List Char} (h : isNumberChar c = false) : Stops (c :: rest) := by
  intro d hd
  obtain rfl := Option.some.inj hd
  exact h

/-- A member of an object: its name and its value. -/
def ReadsMember (m : List Char × Value) (t : Bytes × Bytes) : Prop :=
  JsonString.decode t.1 = some m.1 ∧ Reads m.2 t.2

theorem readMember_append {value : List Char → Option (Value × List Char)} {body name cs rest : List Char}
    {v : Value} (hname : JsonString.unescape body = some name) (hvalue : value (cs ++ rest) = some (v, rest)) :
    readMember value ('"' :: (body ++ '"' :: ':' :: (cs ++ rest))) = some ((name, v), rest) := by
  rw [readMember, readString_append hname (by simp), Option.bind_some]
  dsimp only
  rw [if_pos List.head?_cons, List.tail_cons, hvalue, Option.map_some]

/-- The characters of members that are read. -/
theorem exists_chars_members {ms : List (List Char × Value)} {ts : List (Bytes × Bytes)}
    (h : List.Forall₂ ReadsMember ms ts) :
    ∃ css, ts.map memberText = css.map encode ∧ (∀ cs ∈ css, cs.head? = some '"' ∧ Printable cs) ∧
      List.Forall₂ (fun m cs => ∀ fuel rest, cs.length ≤ fuel → Stops rest →
        readMember (readValue fuel) (cs ++ rest) = some (m, rest)) ms css := by
  induction h with
  | nil => exact ⟨[], rfl, by simp, .nil⟩
  | @cons m t ms ts hm _ ih =>
    obtain ⟨hname, cs, htext, hread⟩ := hm
    obtain ⟨body, hbody, hunescape⟩ := Option.bind_eq_some_iff.mp hname
    obtain ⟨css, hcss, hhead, hreads⟩ := ih
    refine ⟨('"' :: (body ++ '"' :: ':' :: cs)) :: css, ?_, ?_, .cons ?_ hreads⟩
    · rw [List.map_cons, List.map_cons, hcss, memberText, htext, decode_eq_some_iff.mp hbody, encode_cons,
        encode_append, encode_cons, encode_cons]
      rfl
    · intro cs' hcs'
      rcases List.mem_cons.mp hcs' with rfl | hcs'
      · refine ⟨rfl, ?_⟩
        have hbody' := printable_of_unescape hunescape
        have hcs := hread.printable
        unfold Printable at hbody' hcs ⊢
        simpa [or_imp, forall_and] using ⟨hbody', hcs⟩
      · exact hhead cs' hcs'
    · intro fuel rest hfuel hstops
      have hvalue := hread.read fuel rest (by simp only [List.length_cons, List.length_append] at hfuel; omega) hstops
      rw [List.cons_append, List.append_assoc, List.cons_append, List.cons_append]
      exact readMember_append hunescape hvalue

/-- **An object stands for its members.** -/
theorem reads_object {ms : List (List Char × Value)} {ts : List (Bytes × Bytes)}
    (h : List.Forall₂ ReadsMember ms ts) : Reads (.object ms) (objectText ts) := by
  obtain ⟨css, hcss, hhead, hreads⟩ := exists_chars_members h
  refine ⟨'{' :: (separate ',' css ++ ['}']), ?_, by simp, ?_, by simp, fun fuel rest hfuel _ => ?_⟩
  · rw [encode_cons, encode_append, encode_separate, objectText, hcss]
    rfl
  · exact printable_enclosed (by decide) (by decide) fun cs hcs => (hhead cs hcs).2
  · obtain ⟨fuel, rfl⟩ := Nat.exists_eq_add_of_lt (Nat.lt_of_lt_of_le (Nat.succ_pos _) hfuel)
    rw [List.cons_append, readValue, if_pos rfl, List.append_assoc, List.singleton_append]
    cases css with
    | nil =>
      cases hreads
      rfl
    | cons cs css =>
      have hne : ∀ cs' ∈ cs :: css, cs' ≠ [] := by
        rintro cs' hcs' rfl
        cases (hhead [] hcs').1
      have hfirst : (separate ',' (cs :: css) ++ '}' :: rest).head? ≠ some '}' := by
        obtain ⟨c, cs', rfl⟩ := List.exists_cons_of_ne_nil (hne cs List.mem_cons_self)
        obtain rfl := Option.some.inj (hhead _ List.mem_cons_self).1
        cases css <;> simp [separate]
      have hfinds : List.Forall₂ (Finds (readMember (readValue (0 + fuel))) '}') ms (cs :: css) := by
        rw [List.forall₂_iff_get] at hreads ⊢
        refine ⟨hreads.1, fun i hi hi' c rest hc => hreads.2 i hi hi' _ _ ?_ ?_⟩
        · have hle := length_le_separate ',' (List.get_mem (cs :: css) ⟨i, hi'⟩)
          simp only [List.length_cons, List.length_append] at hfuel
          omega
        · rcases hc with rfl | rfl <;> exact stops_of_separator (by decide)
      have hlength := length_le_length_separate ',' hne
      rw [if_neg hfirst, readItems_separate (by decide) hfinds (by simp)
        (by simp only [List.length_append, List.length_cons] at hlength ⊢; omega), Option.map_some]

/-! ### Numbers as they are written -/

theorem isNumberChar_of_digit : ∀ b : UInt8, (digitVal 10 b).isSome →
    isNumberChar (Char.ofNat b.toNat) = true ∧ (Char.ofNat b.toNat).isDigit = true ∧ b < 0x80 := by
  decide +kernel

/-- The digits of a number begin with no zero, or are one. -/
theorem decimal_head (n : ℕ) : decimal n = [48] ∨ (decimal n).head? ≠ some 48 := by
  by_cases hn : n = 0
  · subst hn
    exact .inl rfl
  · right
    rw [decimal, numeral, if_neg hn, List.head?_reverse, List.getLast?_map]
    have hne := Nat.digits_ne_nil_iff_ne_zero (b := 10).mpr hn
    rw [List.getLast?_eq_getLast_of_ne_nil hne, Option.map_some]
    have hlast := Nat.getLast_digit_ne_zero 10 hn
    have hlt := Nat.digits_lt_base (b := 10) (m := n) (by decide) (List.getLast_mem hne)
    intro heq
    have hdigit := digitVal_digitByte (.inl rfl) _ hlt
    rw [Option.some.inj heq] at hdigit
    exact hlast (Option.some.inj hdigit).symm

/-- The text of a number: a sign or none, whole digits that begin with no zero or are one, a fraction or none,
and an exponent or none. -/
structure NumberText where
  sign : Bytes := []
  whole : Bytes
  fraction : Bytes := []
  exponent : Bytes := []
  sign_cases : sign = [] ∨ sign = [45]
  whole_ne : whole ≠ []
  whole_all : AllDigits 10 whole
  whole_head : whole = [48] ∨ whole.head? ≠ some 48
  fraction_cases : fraction = [] ∨ ∃ ds, ds ≠ [] ∧ AllDigits 10 ds ∧ fraction = 46 :: ds
  exponent_cases : exponent = [] ∨
    ∃ s ds, (s = 43 ∨ s = 45) ∧ ds ≠ [] ∧ AllDigits 10 ds ∧ exponent = 101 :: s :: ds

namespace NumberText

variable (w : NumberText)

/-- The bytes. -/
def bytes : Bytes := w.sign ++ (w.whole ++ (w.fraction ++ w.exponent))

/-- Each of them may stand in a number. -/
theorem isNumberChar_of_mem : ∀ b ∈ w.bytes, isNumberChar (Char.ofNat b.toNat) = true ∧ b < 0x80 := by
  have hdigits : ∀ {ds : Bytes}, AllDigits 10 ds → ∀ b ∈ ds, isNumberChar (Char.ofNat b.toNat) = true ∧ b < 0x80 :=
    fun h b hb => ⟨(isNumberChar_of_digit b (h b hb)).1, (isNumberChar_of_digit b (h b hb)).2.2⟩
  intro b hb
  simp only [bytes, List.mem_append] at hb
  rcases hb with hb | hb | hb | hb
  · rcases w.sign_cases with h | h <;> rw [h] at hb
    · cases hb
    · rw [List.mem_singleton.mp hb]
      decide
  · exact hdigits w.whole_all b hb
  · rcases w.fraction_cases with h | ⟨ds, -, hds, h⟩ <;> rw [h] at hb
    · cases hb
    · rcases List.mem_cons.mp hb with rfl | hb
      · decide
      · exact hdigits hds b hb
  · rcases w.exponent_cases with h | ⟨s, ds, hs, -, hds, h⟩ <;> rw [h] at hb
    · cases hb
    · rcases List.mem_cons.mp hb with rfl | hb
      · decide
      rcases List.mem_cons.mp hb with rfl | hb
      · rcases hs with rfl | rfl <;> decide
      · exact hdigits hds b hb

theorem isDigit_of_mem_chars {ds : Bytes} (h : AllDigits 10 ds) : ∀ c ∈ chars ds, c.isDigit = true := by
  intro c hc
  obtain ⟨b, hb, rfl⟩ := List.mem_map.mp hc
  exact (isNumberChar_of_digit b (h b hb)).2.1

/-- A run of digits ends where none follows. -/
theorem span_digits {ds : Bytes} (h : AllDigits 10 ds) {rest : List Char}
    (hrest : ∀ c ∈ rest.head?, c.isDigit = false) :
    (chars ds ++ rest).takeWhile Char.isDigit = chars ds ∧ (chars ds ++ rest).dropWhile Char.isDigit = rest := by
  rw [List.takeWhile_append_of_pos (isDigit_of_mem_chars h), List.dropWhile_append_of_pos (isDigit_of_mem_chars h)]
  cases rest with
  | nil => simp
  | cons c rest => simp [hrest c rfl]

theorem isEmpty_chars {ds : Bytes} (hne : ds ≠ []) : (chars ds).isEmpty = false := by
  simpa [chars] using hne

theorem dropExponent_exponent : dropExponent (chars w.exponent) = some [] := by
  rcases w.exponent_cases with h | ⟨s, ds, hs, hne, hds, h⟩ <;> rw [h]
  · rfl
  · have hspan := @span_digits ds hds [] (by simp)
    rw [List.append_nil] at hspan
    have hsign : dropExponent (chars (101 :: s :: ds)) =
        if ((chars ds).takeWhile Char.isDigit).isEmpty then none else some ((chars ds).dropWhile Char.isDigit) := by
      rcases hs with rfl | rfl <;> rfl
    rw [hsign, hspan.1, hspan.2, isEmpty_chars hne]
    rfl

/-- The exponent begins with no digit. -/
theorem head_exponent : ∀ c ∈ (chars w.exponent).head?, c.isDigit = false := by
  rcases w.exponent_cases with h | ⟨s, ds, -, -, -, h⟩ <;> rw [h] <;> simp [chars]

theorem dropFraction_fraction : dropFraction (chars w.fraction ++ chars w.exponent) = some (chars w.exponent) := by
  rcases w.fraction_cases with h | ⟨ds, hne, hds, h⟩ <;> rw [h]
  · rcases w.exponent_cases with h | ⟨s, ds, -, -, -, h⟩ <;> rw [h] <;> rfl
  · have hspan := span_digits hds w.head_exponent
    have hpoint : dropFraction (chars (46 :: ds) ++ chars w.exponent) =
        if ((chars ds ++ chars w.exponent).takeWhile Char.isDigit).isEmpty then none
        else some ((chars ds ++ chars w.exponent).dropWhile Char.isDigit) := rfl
    rw [hpoint, hspan.1, hspan.2, isEmpty_chars hne]
    rfl

/-- The whole digits are followed by none. -/
theorem head_fraction : ∀ c ∈ (chars w.fraction ++ chars w.exponent).head?, c.isDigit = false := by
  rcases w.fraction_cases with h | ⟨ds, -, -, h⟩ <;> rw [h]
  · exact w.head_exponent
  · simp [chars]

theorem isNumber_chars : isNumber (chars w.bytes) = true := by
  have hspan := span_digits w.whole_all w.head_fraction
  have hfirst : (chars w.whole == ['0'] || (chars w.whole).head?.any (· != '0')) = true := by
    have hzero : ∀ b : UInt8, (digitVal 10 b).isSome → b ≠ 48 → Char.ofNat b.toNat ≠ '0' := by decide +kernel
    obtain ⟨b, ds, h⟩ := List.exists_cons_of_ne_nil w.whole_ne
    rcases w.whole_head with heq | hhead
    · rw [heq]
      rfl
    · rw [Bool.or_eq_true, h]
      right
      rw [h] at hhead
      simpa [chars] using hzero b (w.whole_all b (h ▸ List.mem_cons_self)) (by simpa using hhead)
  have hsign : (chars w.whole).head? ≠ some '-' := by
    intro heq
    cases isDigit_of_mem_chars w.whole_all _ (List.mem_of_head? heq)
  have hrest : (if (chars w.bytes).head? = some '-' then (chars w.bytes).tail else chars w.bytes) =
      chars w.whole ++ (chars w.fraction ++ chars w.exponent) := by
    have hmap : chars w.bytes = chars w.sign ++ (chars w.whole ++ (chars w.fraction ++ chars w.exponent)) := by
      simp [bytes, chars]
    have hne : chars w.whole ≠ [] := by simpa [chars] using w.whole_ne
    rw [hmap]
    rcases w.sign_cases with h | h <;> rw [h]
    · exact if_neg (by rwa [chars, List.map_nil, List.nil_append, List.head?_append_of_ne_nil _ hne])
    · rfl
  unfold isNumber
  dsimp only
  rw [hrest, hspan.1, hspan.2, hfirst, w.dropFraction_fraction, Option.bind_some, w.dropExponent_exponent]
  rfl

/-- **A number stands for itself.** -/
theorem reads_bytes : Reads (.number (chars w.bytes)) w.bytes := by
  have hreads := reads_number w.isNumber_chars fun c hc => by
    obtain ⟨b, hb, rfl⟩ := List.mem_map.mp hc
    exact (w.isNumberChar_of_mem b hb).1
  rwa [encode_chars fun b hb => (w.isNumberChar_of_mem b hb).2] at hreads

end NumberText

/-! ### Integers -/

/-- The text of an integer, as a stream writes it. -/
def intText (n : ℤ) : Bytes := if n < 0 then 45 :: decimal n.natAbs else decimal n.natAbs

/-- An integer. -/
def Value.int (n : ℤ) : Value := .number (chars (intText n))

/-- Its text as a number. -/
def NumberText.ofInt (n : ℤ) : NumberText where
  sign := if n < 0 then [45] else []
  whole := decimal n.natAbs
  sign_cases := by split_ifs <;> simp
  whole_ne := decimal_ne_nil n.natAbs
  whole_all := decimal_allDigits n.natAbs
  whole_head := decimal_head n.natAbs
  fraction_cases := .inl rfl
  exponent_cases := .inl rfl

theorem NumberText.bytes_ofInt (n : ℤ) : (ofInt n).bytes = intText n := by
  unfold bytes ofInt intText
  split_ifs <;> simp

theorem reads_int (n : ℤ) : Reads (.int n) (intText n) := by
  have h := (NumberText.ofInt n).reads_bytes
  rwa [NumberText.bytes_ofInt] at h

theorem intText_natCast (n : ℕ) : intText n = decimal n := by
  unfold intText
  rw [if_neg (by omega), Int.natAbs_natCast]

theorem reads_nat (n : ℕ) : Reads (.int n) (decimal n) := by
  have h := reads_int n
  rwa [intText_natCast] at h

/-! ### Names -/

/-- An ASCII character that stands for itself in a string. -/
def isPlain (c : Char) : Bool := decide (0x20 ≤ c.toNat) && decide (c.toNat < 0x80) && c != '"' && c != '\\'

theorem unescape_plain {cs : List Char} (h : ∀ c ∈ cs, isPlain c = true) : JsonString.unescape cs = some cs := by
  induction cs with
  | nil => rfl
  | cons c cs ih =>
    have hc := h c List.mem_cons_self
    simp only [isPlain, Bool.and_eq_true, decide_eq_true_eq, bne_iff_ne] at hc
    exact JsonString.unescape_readChar (JsonString.readChar_self hc.1.2 hc.2 hc.1.1.1 cs) (by simp)
      (ih fun d hd => h d (List.mem_cons_of_mem c hd))

theorem ascii_eq_encode {name : String} (h : ∀ c ∈ name.toList, c.toNat < 0x80) :
    ascii name = encode name.toList := by
  have hchar : ∀ c : Char, c.toNat < 0x80 → String.utf8EncodeChar c = [c.toNat.toUInt8] := by
    intro c hc
    have hle : c.val.toNat ≤ 0x7f := Nat.le_of_lt_succ hc
    unfold String.utf8EncodeChar
    dsimp only
    rw [if_pos hle]
    rfl
  unfold ascii encode
  generalize name.toList = cs at h
  induction cs with
  | nil => rfl
  | cons c cs ih =>
    rw [List.map_cons, List.flatMap_cons, hchar c (h c List.mem_cons_self),
      ih fun d hd => h d (List.mem_cons_of_mem c hd)]
    rfl

/-- A plain name is itself between its quotes. -/
theorem decode_ascii {name : String} (h : name.toList.all isPlain = true) :
    JsonString.decode (ascii name) = some name.toList := by
  rw [List.all_eq_true] at h
  have hascii : ∀ c ∈ name.toList, c.toNat < 0x80 := by
    intro c hc
    have := h c hc
    simp only [isPlain, Bool.and_eq_true, decide_eq_true_eq] at this
    exact this.1.1.2
  rw [ascii_eq_encode hascii, JsonString.decode, decode_eq_some_iff.mpr rfl, Option.bind_some,
    unescape_plain h]

/-- A member with a plain name. -/
theorem readsMember_of_plain {name : String} {v : Value} {t : Bytes} (hname : name.toList.all isPlain = true)
    (h : Reads v t) : ReadsMember (name.toList, v) (ascii name, t) :=
  ⟨decode_ascii hname, h⟩

/-! ### Escapes -/

/-- **An escape for each byte**: when each ASCII byte is read back from its own escape, a whole text is. -/
theorem decode_flatMap {escape : UInt8 → Bytes}
    (hescape : ∀ b, b < 0x80 → JsonString.readChar (chars (escape b)) = some (Char.ofNat b.toNat, []) ∧
      ∀ c ∈ escape b, c < 0x80) {s : Bytes} (hs : ∀ b ∈ s, b < 0x80) :
    JsonString.decode (s.flatMap escape) = some (chars s) := by
  have hascii : ∀ c ∈ s.flatMap escape, c < 0x80 := by
    intro c hc
    obtain ⟨b, hb, hc⟩ := List.mem_flatMap.mp hc
    exact (hescape b (hs b hb)).2 c hc
  have hunescape : JsonString.unescape (chars (s.flatMap escape)) = some (chars s) := by
    clear hascii
    induction s with
    | nil => rfl
    | cons b s ih =>
      have hread := (hescape b (hs b List.mem_cons_self)).1
      have hne : chars (escape b) ≠ [] := by
        intro heq
        rw [heq] at hread
        cases hread
      have hsplit : chars ((b :: s).flatMap escape) = chars (escape b) ++ chars (s.flatMap escape) := by
        simp [chars]
      rw [hsplit]
      refine JsonString.unescape_readChar (readChar_append hread _) ?_ (ih fun c hc =>
        hs c (List.mem_cons_of_mem b hc))
      have := List.length_pos_of_ne_nil hne
      simp only [List.nil_append, List.length_append]
      omega
  have hdecode : Utf8.decode (s.flatMap escape) = some (chars (s.flatMap escape)) :=
    decode_eq_some_iff.mpr (encode_chars hascii).symm
  rw [JsonString.decode, hdecode, Option.bind_some, hunescape]

/-- The commas of a loop that leaves the first one out. -/
theorem foldl_separate {α : Type} (text : α → Bytes) (xs : List α) :
    (xs.foldl (fun (s : Bytes × Bool) x => (s.1 ++ (if s.2 then [] else [44]) ++ text x, false))
      ([], true)).1 = separate 44 (xs.map text) := by
  have hloop : ∀ (x : α) (xs : List α) (out : Bytes),
      (xs.foldl (fun (s : Bytes × Bool) x => (s.1 ++ (if s.2 then [] else [44]) ++ text x, false))
        (out ++ text x, false)).1 = out ++ separate 44 ((x :: xs).map text) := by
    intro x xs
    induction xs generalizing x with
    | nil => exact fun _ => rfl
    | cons y ys ih =>
      intro out
      rw [List.foldl_cons]
      have hstep := ih y (out ++ text x ++ [44])
      simp only [Bool.false_eq_true, if_false]
      rw [hstep, List.append_assoc, List.append_assoc]
      rfl
  cases xs with
  | nil => rfl
  | cons x xs =>
    have h := hloop x xs []
    simpa using h

/-! ### No NUL -/

theorem ne_zero_of_mem_encodeChar {c : Char} (hc : c.toNat ≠ 0) : (0 : UInt8) ∉ String.utf8EncodeChar c := by
  have hc' : c.val.toNat ≠ 0 := hc
  intro hmem
  unfold String.utf8EncodeChar at hmem
  dsimp only at hmem
  split_ifs at hmem with h1 h2 h3
  all_goals
    simp only [List.mem_cons, List.not_mem_nil, or_false, ← UInt8.toNat_inj, UInt8.toNat_ofNat',
      UInt8.reduceToNat] at hmem
    omega

/-- A text that says a value has no NUL. -/
theorem Reads.zero_notMem {v : Value} {t : Bytes} (h : Reads v t) : (0 : UInt8) ∉ t := by
  obtain ⟨cs, rfl, hreads⟩ := h
  intro hmem
  obtain ⟨c, hc, hmem⟩ := List.mem_flatMap.mp hmem
  have hge := hreads.printable c hc
  exact ne_zero_of_mem_encodeChar (by omega) hmem

end Json
