import Mathlib.Data.List.Basic
import Mathlib.Data.List.Infix
import Mathlib.Data.List.DropRight
import Mathlib.Data.Nat.Find
import Mathlib.Tactic.Common

/-!
# Byte strings with the C and C++ string functions

A `Bytes` is a list of octets.  The functions are those of `std::string` and of `<cstdlib>` /
`<cctype>` in the `C` locale: `find`, `tolower`, `isspace`, `strtoull`, `atoi`.  `cStr` is the part
of a string a `const char *` reader sees.

The results are about `find`: `find_eq_some_iff` (it is the first occurrence),
`find_append_of_eq_some` (a match survives more input), `find_isSome_prefix_iff` (which prefixes
of a string already hold the match), `find_append_of_not_mem` (it skips text without the pattern's
first byte).
-/

/-- A byte string. -/
abbrev Bytes := List UInt8

namespace ByteString

/-- The bytes of an ASCII literal. -/
def ascii (s : String) : Bytes := s.toList.map fun c => c.toNat.toUInt8

/-- Carriage return, line feed. -/
def crlf : Bytes := [13, 10]

/-! ### Statements about every byte -/

theorem forall_byte_iff {P : UInt8 → Prop} : (∀ c, P c) ↔ ∀ n < 256, P (UInt8.ofNat n) := by
  constructor
  · intro h n _
    exact h _
  · intro h c
    have := h c.toNat c.toNat_lt
    rwa [UInt8.ofNat_toNat] at this

/-- A statement about every byte is decided by its 256 cases. -/
instance (priority := low) decidableForallByte {P : UInt8 → Prop} [DecidablePred P] :
    Decidable (∀ c, P c) :=
  decidable_of_iff _ forall_byte_iff.symm

/-! ### Character classes -/

/-- `isspace`: blank, and the controls from tab to carriage return. -/
def isSpace (c : UInt8) : Bool := c == 32 || (9 ≤ c && c ≤ 13)

/-- `tolower`. -/
def toLower (c : UInt8) : UInt8 := if 65 ≤ c && c ≤ 90 then c + 32 else c

/-- `tolower` on every byte. -/
def lower (s : Bytes) : Bytes := s.map toLower

@[simp] theorem lower_nil : lower [] = [] := rfl

@[simp] theorem lower_append (s t : Bytes) : lower (s ++ t) = lower s ++ lower t :=
  List.map_append

@[simp] theorem length_lower (s : Bytes) : (lower s).length = s.length := List.length_map _

/-- `isdigit`. -/
def isDigit (c : UInt8) : Bool := 48 ≤ c && c ≤ 57

/-- `isalnum`. -/
def isAlnum (c : UInt8) : Bool :=
  isDigit c || (65 ≤ c && c ≤ 90) || (97 ≤ c && c ≤ 122)

/-- Blank or tab, the optional white space around a field value. -/
def isBlank (c : UInt8) : Bool := c == 32 || c == 9

/-- Drop the blanks and tabs at both ends. -/
def trimBlanks (s : Bytes) : Bytes := (s.dropWhile isBlank).rdropWhile isBlank

/-- What a `const char *` reader sees: everything before the first NUL. -/
def cStr (s : Bytes) : Bytes := s.takeWhile (· != 0)

theorem cStr_eq_self {s : Bytes} (h : (0 : UInt8) ∉ s) : cStr s = s := by
  apply List.takeWhile_eq_self_iff.mpr
  intro c hc
  simpa using ne_of_mem_of_not_mem hc h

/-! ### Searching -/

/-- `s.find(pat)`; `none` is `npos`. -/
def find (pat : Bytes) : Bytes → Option ℕ
  | [] => if pat.isEmpty then some 0 else none
  | c :: s => if pat.isPrefixOf (c :: s) then some 0 else (find pat s).map (· + 1)

/-- `s.find(pat, pos)`. -/
def findFrom (pat s : Bytes) (pos : ℕ) : Option ℕ := (find pat (s.drop pos)).map (pos + ·)

/-- `s.find(pat) != npos`. -/
def contains (pat s : Bytes) : Bool := (find pat s).isSome

/-- `find` answers the first position at which the pattern stands. -/
theorem find_eq_some_iff {pat s : Bytes} {i : ℕ} :
    find pat s = some i ↔ i ≤ s.length ∧ pat <+: s.drop i ∧ ∀ j < i, ¬ pat <+: s.drop j := by
  induction s generalizing i with
  | nil =>
    cases pat with
    | nil =>
      constructor
      · rintro ⟨rfl⟩
        simp
      · rintro ⟨hle, -, -⟩
        obtain rfl := Nat.le_zero.mp hle
        rfl
    | cons p ps => simp [find]
  | cons c s ih =>
    rw [find]
    by_cases hp : pat <+: c :: s
    · -- the pattern is here
      rw [if_pos (List.isPrefixOf_iff_prefix.mpr hp)]
      constructor
      · rintro ⟨rfl⟩
        exact ⟨Nat.zero_le _, hp, fun j hj => absurd hj (Nat.not_lt_zero j)⟩
      · rintro ⟨-, -, hfirst⟩
        rcases Nat.eq_zero_or_pos i with rfl | hi
        · rfl
        · exact absurd hp (hfirst 0 hi)
    · -- the pattern is further on, if anywhere
      rw [if_neg (fun h => hp (List.isPrefixOf_iff_prefix.mp h)), Option.map_eq_some_iff]
      constructor
      · rintro ⟨k, hk, rfl⟩
        obtain ⟨hle, hpre, hfirst⟩ := ih.mp hk
        refine ⟨by simpa using hle, by simpa using hpre, ?_⟩
        intro j hj
        cases j with
        | zero => simpa using hp
        | succ j => simpa using hfirst j (by omega)
      · rintro ⟨hle, hpre, hfirst⟩
        cases i with
        | zero => exact absurd (by simpa using hpre) hp
        | succ k =>
          refine ⟨k, ih.mpr ⟨by simpa using hle, by simpa using hpre, ?_⟩, rfl⟩
          intro j hj
          simpa using hfirst (j + 1) (by omega)

theorem find_eq_none_iff {pat s : Bytes} :
    find pat s = none ↔ ∀ j ≤ s.length, ¬ pat <+: s.drop j := by
  constructor
  · intro h j hj hpre
    -- the least position with an occurrence would have been found
    have hex : ∃ k, k ≤ s.length ∧ pat <+: s.drop k := ⟨j, hj, hpre⟩
    have hfound : find pat s = some (Nat.find hex) := by
      rw [find_eq_some_iff]
      refine ⟨(Nat.find_spec hex).1, (Nat.find_spec hex).2, ?_⟩
      intro k hk hpk
      exact Nat.find_min hex hk ⟨(Nat.le_of_lt hk).trans (Nat.find_spec hex).1, hpk⟩
    rw [h] at hfound
    cases hfound
  · intro h
    cases hf : find pat s with
    | none => rfl
    | some i =>
      obtain ⟨hle, hpre, -⟩ := find_eq_some_iff.1 hf
      exact absurd hpre (h i hle)

theorem find_add_length_le {pat s : Bytes} {i : ℕ} (h : find pat s = some i) :
    i + pat.length ≤ s.length := by
  obtain ⟨hle, hpre, -⟩ := find_eq_some_iff.1 h
  have := hpre.length_le
  rw [List.length_drop] at this
  omega

/-- The text before the match, the match, the text after it. -/
theorem take_append_drop_of_find {pat s : Bytes} {i : ℕ} (h : find pat s = some i) :
    s.take i ++ pat ++ s.drop (i + pat.length) = s := by
  obtain ⟨-, ⟨t, ht⟩, -⟩ := find_eq_some_iff.1 h
  have hdrop : s.drop (i + pat.length) = t := by
    rw [← List.drop_drop, ← ht, List.drop_left]
  rw [hdrop, List.append_assoc, ht, List.take_append_drop]

/-- A match found in `s` is the match found in any continuation of `s`. -/
theorem find_append_of_eq_some {pat s : Bytes} {i : ℕ} (h : find pat s = some i) (t : Bytes) :
    find pat (s ++ t) = some i := by
  have hlen := find_add_length_le h
  obtain ⟨hle, hpre, hfirst⟩ := find_eq_some_iff.1 h
  refine find_eq_some_iff.2 ⟨by rw [List.length_append]; omega, ?_, ?_⟩
  · rw [List.drop_append_of_le_length hle]
    exact hpre.trans (List.prefix_append _ _)
  · intro j hj hpj
    rw [List.drop_append_of_le_length (by omega)] at hpj
    refine hfirst j hj (List.prefix_of_prefix_length_le hpj (List.prefix_append _ _) ?_)
    rw [List.length_drop]
    omega

/-- Which prefixes of a string already hold its first match: those that reach its end. -/
theorem find_take_of_eq_some {pat s : Bytes} {i k : ℕ} (h : find pat s = some i)
    (hk : i + pat.length ≤ k) : find pat (s.take k) = some i := by
  have hlen := find_add_length_le h
  obtain ⟨hle, hpre, hfirst⟩ := find_eq_some_iff.1 h
  refine find_eq_some_iff.2 ⟨by rw [List.length_take]; omega, ?_, ?_⟩
  · rw [List.drop_take]
    exact List.prefix_take_iff.mpr ⟨hpre, by omega⟩
  · intro j hj hpj
    rw [List.drop_take] at hpj
    exact hfirst j hj (hpj.trans (List.take_prefix _ _))

theorem find_isSome_prefix_iff {pat p s : Bytes} {i : ℕ} (hp : p <+: s)
    (h : find pat s = some i) : (find pat p).isSome ↔ i + pat.length ≤ p.length := by
  constructor
  · intro hsome
    obtain ⟨j, hj⟩ := Option.isSome_iff_exists.mp hsome
    obtain ⟨t, rfl⟩ := hp
    have := find_append_of_eq_some hj t
    rw [h] at this
    obtain rfl := Option.some.inj this
    exact find_add_length_le hj
  · intro hle
    rw [List.prefix_iff_eq_take.mp hp, find_take_of_eq_some h hle]
    rfl

/-- Text without the pattern's first byte is skipped. -/
theorem find_append_of_not_mem {c : UInt8} {ps l : Bytes} (hc : c ∉ l) (s : Bytes) :
    find (c :: ps) (l ++ s) = (find (c :: ps) s).map (l.length + ·) := by
  induction l with
  | nil => simp
  | cons d l ih =>
    rw [List.mem_cons, not_or] at hc
    rw [List.cons_append, find, if_neg (by simp [List.isPrefixOf, hc.1]), ih hc.2, Option.map_map]
    congr 1
    funext n
    simp only [Function.comp_apply, List.length_cons]
    omega

theorem find_eq_none_of_not_mem {c : UInt8} {ps l : Bytes} (hc : c ∉ l) :
    find (c :: ps) l = none := by
  simpa [find] using find_append_of_not_mem hc ([] : Bytes)

/-! ### Occurrences -/

theorem contains_iff_infix {pat s : Bytes} : contains pat s = true ↔ pat <:+: s := by
  rw [contains, Option.isSome_iff_exists]
  constructor
  · rintro ⟨i, hi⟩
    exact ⟨s.take i, s.drop (i + pat.length), take_append_drop_of_find hi⟩
  · rintro ⟨u, v, rfl⟩
    rw [← Option.isSome_iff_exists, ← Option.ne_none_iff_isSome]
    intro hnone
    refine find_eq_none_iff.1 hnone u.length (by simp) ?_
    rw [List.append_assoc, List.drop_left]
    exact List.prefix_append _ _

/-- Dropping leading bytes that the pattern does not have loses no occurrence. -/
theorem infix_dropWhile_iff {p : UInt8 → Bool} {pat s : Bytes} (hne : pat ≠ [])
    (hpat : ∀ c ∈ pat, p c = false) : pat <:+: s.dropWhile p ↔ pat <:+: s := by
  induction s with
  | nil => rfl
  | cons c s ih =>
    rw [List.dropWhile_cons]
    split_ifs with hc
    · rw [ih, List.infix_cons_iff, iff_or_self]
      intro hpre
      obtain ⟨d, ds, rfl⟩ := List.exists_cons_of_ne_nil hne
      rw [List.cons_prefix_cons] at hpre
      rw [← hpre.1, hpat d (List.mem_cons_self ..)] at hc
      cases hc
    · rfl

/-- An occurrence of a pattern without blanks lies between the blanks at the ends. -/
theorem infix_trimBlanks_iff {pat s : Bytes} (hne : pat ≠ []) (hpat : ∀ c ∈ pat, isBlank c = false) :
    pat <:+: trimBlanks s ↔ pat <:+: s := by
  have hrev : pat.reverse ≠ [] := by simpa using hne
  have hpatrev : ∀ c ∈ pat.reverse, isBlank c = false := by simpa using hpat
  rw [trimBlanks, List.rdropWhile, ← List.reverse_infix, List.reverse_reverse,
    infix_dropWhile_iff hrev hpatrev, List.reverse_infix, infix_dropWhile_iff hne hpat]

theorem isBlank_toLower : ∀ c : UInt8, isBlank (toLower c) = isBlank c := by
  decide +kernel

theorem lower_trimBlanks (s : Bytes) : lower (trimBlanks s) = trimBlanks (lower s) := by
  have hblank : (isBlank ∘ toLower) = isBlank := funext isBlank_toLower
  simp only [lower, trimBlanks, List.rdropWhile, List.dropWhile_map, ← List.map_reverse, hblank]

theorem trimBlanks_cons_blank {c : UInt8} (hc : isBlank c = true) (s : Bytes) :
    trimBlanks (c :: s) = trimBlanks s := by
  rw [trimBlanks, trimBlanks, List.dropWhile_cons, if_pos hc]

theorem trimBlanks_eq_self {s : Bytes} (h : ∀ c ∈ s, isBlank c = false) : trimBlanks s = s := by
  have hfront : s.dropWhile isBlank = s := by
    cases s with
    | nil => rfl
    | cons c s => rw [List.dropWhile_cons, if_neg (by simp [h c (List.mem_cons_self ..)])]
  rw [trimBlanks, hfront, List.rdropWhile_eq_self_iff]
  intro hne
  simp [h _ (List.getLast_mem hne)]

/-! ### Lines -/

/-- The text of a line: the first CRLF behind it is the one that ends it. -/
def IsLine (line : Bytes) : Prop := find crlf (line ++ crlf) = some line.length

instance (line : Bytes) : Decidable (IsLine line) := inferInstanceAs (Decidable (_ = _))

theorem IsLine.find {line : Bytes} (h : IsLine line) (s : Bytes) :
    find crlf (line ++ crlf ++ s) = some line.length :=
  find_append_of_eq_some h s

theorem isLine_of_not_mem {line : Bytes} (h : (13 : UInt8) ∉ line) : IsLine line := by
  unfold IsLine
  rw [show crlf = 13 :: [10] from rfl, find_append_of_not_mem h]
  simp [ByteString.find, List.isPrefixOf]

/-- A string with a CRLF is its first line, the CRLF and the rest. -/
theorem exists_line_of_find {s : Bytes} {i : ℕ} (h : find crlf s = some i) :
    ∃ line rest, IsLine line ∧ s = line ++ crlf ++ rest ∧ line.length = i := by
  have hlen := find_add_length_le h
  have hsplit := take_append_drop_of_find h
  have htake : (s.take i).length = i := by
    rw [List.length_take]
    omega
  refine ⟨s.take i, s.drop (i + 2), ?_, hsplit.symm, htake⟩
  have hfront : s.take i ++ crlf = s.take (i + crlf.length) := by
    rw [List.take_add, (List.prefix_iff_eq_take.mp (find_eq_some_iff.1 h).2.1).symm]
  unfold IsLine
  rw [hfront, find_take_of_eq_some h le_rfl, htake]

/-- Lines joined by CRLF. -/
def joinLines (line : Bytes) (lines : List Bytes) : Bytes := line ++ lines.flatMap (crlf ++ ·)

theorem joinLines_cons (line next : Bytes) (lines : List Bytes) :
    joinLines line (next :: lines) = line ++ crlf ++ joinLines next lines := by
  rw [joinLines, joinLines, List.flatMap_cons, List.append_assoc, List.append_assoc]

/-- Lines ended by CRLF are lines joined by CRLF, and a CRLF. -/
theorem flatMap_ended_eq (line : Bytes) (lines : List Bytes) :
    (line :: lines).flatMap (· ++ crlf) = joinLines line lines ++ crlf := by
  induction lines generalizing line with
  | nil => simp [joinLines]
  | cons next lines ih =>
    rw [List.flatMap_cons, ih, joinLines_cons]
    simp only [List.append_assoc]

/-- The empty line: the first place where one line end follows another. -/
def emptyLineMark : Bytes := [13, 10, 13, 10]

/-- Behind nonempty lines the empty line is found where they end. -/
theorem find_emptyLineMark_joinLines {line : Bytes} {lines : List Bytes}
    (h : ∀ l ∈ line :: lines, (13 : UInt8) ∉ l) (hne : ∀ l ∈ lines, l ≠ []) (t : Bytes) :
    find emptyLineMark (joinLines line lines ++ emptyLineMark ++ t) =
      some (joinLines line lines).length := by
  induction lines generalizing line with
  | nil =>
    rw [joinLines, List.flatMap_nil, List.append_nil, List.append_assoc, emptyLineMark,
      find_append_of_not_mem (h line (List.mem_cons_self ..))]
    simp [find, List.isPrefixOf]
  | cons next lines ih =>
    have hrest := ih (fun l hl => h l (List.mem_cons_of_mem _ hl))
      (fun l hl => hne l (List.mem_cons_of_mem _ hl))
    obtain ⟨c, cs, hcs⟩ := List.exists_cons_of_ne_nil (hne next (List.mem_cons_self ..))
    have hc : c ≠ 13 := by
      rintro rfl
      exact h next (by simp) (by rw [hcs]; exact List.mem_cons_self ..)
    -- the line end before `next` is not the mark: `next` does not begin with a carriage return
    have hskip : ∀ s, find emptyLineMark (crlf ++ (c :: s)) =
        (find emptyLineMark (c :: s)).map (2 + ·) := by
      intro s
      have h1 : find emptyLineMark (crlf ++ (c :: s)) =
          (find emptyLineMark (10 :: c :: s)).map (· + 1) := by
        rw [show crlf ++ (c :: s) = 13 :: 10 :: c :: s from rfl, find, if_neg]
        simp [emptyLineMark, List.isPrefixOf, Ne.symm hc]
      have h2 : find emptyLineMark (10 :: c :: s) =
          (find emptyLineMark (c :: s)).map (· + 1) := by
        rw [find, if_neg]
        simp [emptyLineMark, List.isPrefixOf]
      rw [h1, h2, Option.map_map]
      congr 1
      funext n
      simp only [Function.comp_apply]
      omega
    have hhead : ∃ s, joinLines next lines ++ emptyLineMark ++ t = c :: s := by
      rw [joinLines, hcs]
      exact ⟨_, rfl⟩
    obtain ⟨s, hs⟩ := hhead
    have hassoc : joinLines line (next :: lines) ++ emptyLineMark ++ t =
        line ++ (crlf ++ (joinLines next lines ++ emptyLineMark ++ t)) := by
      rw [joinLines_cons]
      simp only [List.append_assoc]
    rw [hassoc, emptyLineMark, find_append_of_not_mem (h line (List.mem_cons_self ..)),
      ← emptyLineMark, hs, hskip, ← hs, hrest, joinLines_cons]
    simp only [crlf, Option.map_some, List.length_append, List.length_cons, List.length_nil]
    congr 1
    omega

/-! ### Lines -/

/-- The lines of a text, each with the byte that ends it. -/
def unlines (stop : UInt8) (ls : List Bytes) : Bytes := ls.flatMap fun l => l ++ [stop]

@[simp] theorem unlines_nil (stop : UInt8) : unlines stop [] = [] := rfl

theorem unlines_cons (stop : UInt8) (l : Bytes) (ls : List Bytes) :
    unlines stop (l :: ls) = l ++ stop :: unlines stop ls := by
  rw [unlines, List.flatMap_cons, List.append_assoc, List.singleton_append]
  rfl

/-- Text before the first `c` and text after it. -/
theorem append_cons_inj_of_notMem {c : UInt8} {s s' t t' : Bytes} (hs : c ∉ s) (hs' : c ∉ s')
    (h : s ++ c :: t = s' ++ c :: t') : s = s' ∧ t = t' := by
  have hsplit : ∀ {s t : Bytes}, c ∉ s →
      (s ++ c :: t).takeWhile (· != c) = s ∧ (s ++ c :: t).dropWhile (· != c) = c :: t := by
    intro s t hs
    have hall : ∀ x ∈ s, (x != c) = true := by
      intro x hx
      simpa using ne_of_mem_of_not_mem hx hs
    rw [List.takeWhile_append_of_pos hall, List.dropWhile_append_of_pos hall]
    simp
  have htake := congrArg (List.takeWhile (· != c)) h
  have hdrop := congrArg (List.dropWhile (· != c)) h
  rw [(hsplit hs).1, (hsplit hs').1] at htake
  rw [(hsplit hs).2, (hsplit hs').2] at hdrop
  exact ⟨htake, (List.cons.inj hdrop).2⟩

/-- Text before the last `c` and text after it. -/
theorem append_cons_inj_of_notMem_right {c : UInt8} {s s' t t' : Bytes} (ht : c ∉ t) (ht' : c ∉ t')
    (h : s ++ c :: t = s' ++ c :: t') : s = s' ∧ t = t' := by
  have hrev := congrArg List.reverse h
  simp only [List.reverse_append, List.reverse_cons, List.append_assoc, List.singleton_append] at hrev
  rw [← List.mem_reverse] at ht ht'
  obtain ⟨htail, hhead⟩ := append_cons_inj_of_notMem ht ht' hrev
  exact ⟨List.reverse_injective hhead, List.reverse_injective htail⟩

/-- **A text determines its lines**, when no line holds the byte that ends it. -/
theorem unlines_inj {stop : UInt8} {ls ls' : List Bytes} (hls : ∀ l ∈ ls, stop ∉ l)
    (hls' : ∀ l ∈ ls', stop ∉ l) (h : unlines stop ls = unlines stop ls') : ls = ls' := by
  induction ls generalizing ls' with
  | nil =>
    cases ls' with
    | nil => rfl
    | cons l' ls' =>
      rw [unlines_cons] at h
      exact absurd h.symm (by simp)
  | cons l ls ih =>
    cases ls' with
    | nil =>
      rw [unlines_cons] at h
      exact absurd h (by simp)
    | cons l' ls' =>
      rw [unlines_cons, unlines_cons] at h
      have hl := hls l List.mem_cons_self
      have hl' := hls' l' List.mem_cons_self
      obtain ⟨rfl, hrest⟩ := append_cons_inj_of_notMem hl hl' h
      have htail := ih (fun l hmem => hls l (List.mem_cons_of_mem _ hmem))
        (fun l hmem => hls' l (List.mem_cons_of_mem _ hmem)) hrest
      rw [htail]

end ByteString
