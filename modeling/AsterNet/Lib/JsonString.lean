import AsterNet.Lib.Utf8
import Mathlib.Data.Nat.Notation

/-!
# The body of a JSON string

`decode` is a strict reader of the bytes between the quotes of a JSON string: UTF-8 first, then one
character after the other.  A quote, a backslash that begins no escape, a control character and one half of
a surrogate pair are refused.  `unescape_readChar` goes over a text piece by piece.
-/

namespace JsonString

open ByteString

/-- The value of a hexadecimal digit. -/
def hexValue (c : Char) : Option ℕ :=
  if '0' ≤ c ∧ c ≤ '9' then some (c.toNat - '0'.toNat)
  else if 'a' ≤ c ∧ c ≤ 'f' then some (c.toNat - 'a'.toNat + 10)
  else if 'A' ≤ c ∧ c ≤ 'F' then some (c.toNat - 'A'.toNat + 10)
  else none

/-- The character an escape of one letter stands for. -/
def shortEscape : Char → Option Char
  | '"' => some '"'
  | '\\' => some '\\'
  | '/' => some '/'
  | 'b' => some '\x08'
  | 'f' => some '\x0c'
  | 'n' => some '\n'
  | 'r' => some '\r'
  | 't' => some '\t'
  | _ => none

/-- Four hexadecimal digits, and what follows them. -/
def readHex : List Char → Option (ℕ × List Char)
  | a :: b :: c :: d :: rest => do
    let w ← hexValue a
    let x ← hexValue b
    let y ← hexValue c
    let z ← hexValue d
    some (((w * 16 + x) * 16 + y) * 16 + z, rest)
  | _ => none

/-- The character of a code unit, or of a surrogate pair that begins with it. -/
def readUnit (unit : ℕ) (rest : List Char) : Option (Char × List Char) :=
  if unit < 0xd800 ∨ 0xdfff < unit then some (Char.ofNat unit, rest)
  else if 0xdc00 ≤ unit then none
  else
    match rest with
    | '\\' :: 'u' :: rest =>
      match readHex rest with
      | some (low, rest) =>
        if 0xdc00 ≤ low ∧ low ≤ 0xdfff then
          some (Char.ofNat (0x10000 + (unit - 0xd800) * 0x400 + (low - 0xdc00)), rest)
        else none
      | none => none
    | _ => none

/-- One character of a string, and what follows it. -/
def readChar : List Char → Option (Char × List Char)
  | [] => none
  | '\\' :: 'u' :: rest => (readHex rest).bind fun unit => readUnit unit.1 unit.2
  | '\\' :: c :: rest => (shortEscape c).map fun c => (c, rest)
  | c :: rest => if c = '"' ∨ c = '\\' ∨ c.toNat < 0x20 then none else some (c, rest)

/-- The text of a string, read in at most `fuel` characters. -/
def unescapeIn : ℕ → List Char → Option (List Char)
  | _, [] => some []
  | 0, _ :: _ => none
  | fuel + 1, c :: s => (readChar (c :: s)).bind fun one => (unescapeIn fuel one.2).map (one.1 :: ·)

/-- The text of a string. -/
def unescape (s : List Char) : Option (List Char) := unescapeIn s.length s

/-- The text between the quotes. -/
def decode (s : Bytes) : Option (List Char) := (Utf8.decode s).bind unescape

/-! ### Reading piece by piece -/

/-- Fuel beyond the length of the text changes nothing once it is read. -/
theorem unescapeIn_of_le {fuel fuel' : ℕ} {s cs : List Char} (h : unescapeIn fuel s = some cs)
    (hle : fuel ≤ fuel') : unescapeIn fuel' s = some cs := by
  induction fuel generalizing fuel' s cs with
  | zero =>
    cases s with
    | nil => cases fuel' <;> exact h
    | cons c s => cases h
  | succ fuel ih =>
    obtain ⟨fuel', rfl⟩ := Nat.exists_eq_add_of_lt hle
    cases s with
    | nil => exact h
    | cons c s =>
      rw [unescapeIn, Option.bind_eq_some_iff] at h
      obtain ⟨one, hone, h⟩ := h
      obtain ⟨cs, hcs, rfl⟩ := Option.map_eq_some_iff.mp h
      rw [unescapeIn, hone, Option.bind_some, ih hcs (Nat.le_add_right _ _), Option.map_some]

/-- **One character, then the rest.** -/
theorem unescape_readChar {s rest cs : List Char} {c : Char} (h : readChar s = some (c, rest))
    (hlt : rest.length < s.length) (hrest : unescape rest = some cs) : unescape s = some (c :: cs) := by
  cases s with
  | nil => cases h
  | cons x s =>
    unfold unescape
    rw [List.length_cons] at hlt ⊢
    rw [unescapeIn, h, Option.bind_some, unescapeIn_of_le hrest (Nat.le_of_lt_succ hlt), Option.map_some]

theorem readChar_self {c : Char} (hquote : c ≠ '"') (hbackslash : c ≠ '\\') (hcontrol : 0x20 ≤ c.toNat)
    (rest : List Char) : readChar (c :: rest) = some (c, rest) := by
  unfold readChar
  split
  · simp_all
  · simp_all
  · simp_all
  · rename_i heq
    obtain ⟨rfl, rfl⟩ := List.cons.inj heq
    rw [if_neg (by simp [hquote, hbackslash]; omega)]

theorem readChar_short {e c : Char} (h : shortEscape e = some c) (rest : List Char) :
    readChar ('\\' :: e :: rest) = some (c, rest) := by
  have hne : e ≠ 'u' := by
    rintro rfl
    cases h
  unfold readChar
  split
  · simp_all
  · rename_i heq
    simp_all
  · rename_i heq
    obtain ⟨-, heq⟩ := List.cons.inj heq
    obtain ⟨rfl, rfl⟩ := List.cons.inj heq
    rw [h]
    rfl
  · rename_i hall heq
    obtain ⟨rfl, rfl⟩ := List.cons.inj heq
    exact (hall e rest rfl rfl).elim

/-- A character below the surrogates, by its number. -/
theorem readChar_unit {a b c d : Char} {unit : ℕ} {rest : List Char}
    (h : readHex (a :: b :: c :: d :: rest) = some (unit, rest)) (hunit : unit < 0xd800) :
    readChar ('\\' :: 'u' :: a :: b :: c :: d :: rest) = some (Char.ofNat unit, rest) := by
  have hread : readUnit unit rest = some (Char.ofNat unit, rest) := by
    unfold readUnit
    rw [if_pos (.inl hunit)]
  rw [readChar, h, Option.bind_some, hread]

end JsonString
