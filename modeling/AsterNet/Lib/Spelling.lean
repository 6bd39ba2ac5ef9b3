import AsterNet.Lib.Numeral

/-!
# What `strtoull` reads

`Spelling base` is a number as `strtoull` understands it: white space, a sign, `0x` for base 16, digits.
`Spelling.strtoull_append` says that each of them is read to its end, and `exists_spelling` that nothing
else is read.  `Spelling.Plain` are those that are digits only.
-/

namespace ByteString

/-- A number with all that `strtoull` allows before its digits. -/
structure Spelling (base : ℕ) where
  blanks : Bytes := []
  sign : Bytes := []
  pre : Bytes := []
  digits : Bytes
  blanks_all : ∀ c ∈ blanks, isSpace c = true
  sign_cases : sign = [] ∨ sign = [43] ∨ sign = [45]
  pre_cases : pre = [] ∨ base = 16 ∧ (pre = ascii "0x" ∨ pre = ascii "0X")
  digits_ne : digits ≠ []
  digits_all : AllDigits base digits

namespace Spelling

variable {base : ℕ}

/-- The text. -/
def bytes (w : Spelling base) : Bytes := w.blanks ++ (w.sign ++ (w.pre ++ w.digits))

/-- The number its digits denote. -/
def magnitude (w : Spelling base) : ℕ := digitsValue base w.digits

/-- The number `strtoull` makes of it. -/
def value (w : Spelling base) : ℕ :=
  if w.sign = [45] then (2 ^ 64 - w.magnitude) % 2 ^ 64 else w.magnitude

/-- Digits only. -/
def Plain (w : Spelling base) : Prop := w.blanks = [] ∧ w.sign = [] ∧ w.pre = []

/-- The text that comes behind a number and does not belong to it. -/
def Ends (base : ℕ) (tail : Bytes) : Prop :=
  StopsDigits base tail ∧ ∀ c ∈ tail.head?, toLower c ≠ 120

/-! ### The parts of a text -/

theorem takeWhile_append_of_head {p : UInt8 → Bool} {front rest : Bytes} (hfront : ∀ c ∈ front, p c = true)
    (hrest : ∀ c ∈ rest.head?, p c = false) : (front ++ rest).takeWhile p = front := by
  rw [List.takeWhile_append_of_pos hfront]
  cases rest with
  | nil => simp
  | cons c rest => simp [hrest c rfl]

section

variable (w : Spelling base) {tail : Bytes}

theorem exists_digit : ∃ d ds, w.digits = d :: ds ∧ (digitVal base d).isSome = true := by
  obtain ⟨d, ds, heq⟩ := List.exists_cons_of_ne_nil w.digits_ne
  exact ⟨d, ds, heq, w.digits_all d (heq ▸ List.mem_cons_self)⟩

/-- The byte behind the sign is a digit. -/
theorem head_pre_digits (hbase : base = 10 ∨ base = 16) (tail : Bytes) :
    ∃ d rest, w.pre ++ (w.digits ++ tail) = d :: rest ∧ (digitVal 16 d).isSome = true := by
  obtain ⟨d, ds, heq, hd⟩ := w.exists_digit
  rcases w.pre_cases with hnil | ⟨-, hpre | hpre⟩
  · refine ⟨d, ds ++ tail, by rw [hnil, heq]; rfl, ?_⟩
    rcases hbase with rfl | rfl
    · exact digitVal_ten_isSome d hd
    · exact hd
  · exact ⟨48, 120 :: (w.digits ++ tail), by rw [hpre]; rfl, by decide⟩
  · exact ⟨48, 88 :: (w.digits ++ tail), by rw [hpre]; rfl, by decide⟩

/-- The byte behind the white space is none. -/
theorem head_not_space (hbase : base = 10 ∨ base = 16) (tail : Bytes) :
    ∀ c ∈ (w.sign ++ (w.pre ++ (w.digits ++ tail))).head?, isSpace c = false := by
  obtain ⟨d, rest, heq, hd⟩ := w.head_pre_digits hbase tail
  rw [heq]
  intro c hc
  rcases w.sign_cases with hnil | hplus | hminus
  · rw [hnil] at hc
    obtain rfl : d = c := Option.some.inj hc
    exact (digitVal_isSome_cases d hd).1
  · rw [hplus] at hc
    obtain rfl : (43 : UInt8) = c := Option.some.inj hc
    decide
  · rw [hminus] at hc
    obtain rfl : (45 : UInt8) = c := Option.some.inj hc
    decide

theorem signOf_append (hbase : base = 10 ∨ base = 16) (tail : Bytes) :
    signOf (w.sign ++ (w.pre ++ (w.digits ++ tail))) = (w.sign.length, decide (w.sign = [45])) := by
  obtain ⟨d, rest, heq, hd⟩ := w.head_pre_digits hbase tail
  rw [heq]
  obtain ⟨-, hminus, hplus, -⟩ := digitVal_isSome_cases d hd
  rcases w.sign_cases with h | h | h
  · rw [h]
    simp [signOf, hminus, hplus]
  · rw [h]
    simp [signOf]
  · rw [h]
    simp [signOf]

/-- Digits are not taken for a hexadecimal prefix: none of them is an `x`. -/
theorem hasHexPrefix_digits (hbase : base = 10 ∨ base = 16) (htail : Ends base tail) :
    hasHexPrefix base (w.digits ++ tail) = false := by
  obtain ⟨d, ds, heq, -⟩ := w.exists_digit
  have hsecond : ∀ c ∈ (ds ++ tail).head?, toLower c ≠ 120 := by
    intro c hc
    cases ds with
    | nil => exact htail.2 c hc
    | cons e ds =>
      obtain rfl : e = c := Option.some.inj hc
      have he : (digitVal base e).isSome = true := w.digits_all e (by rw [heq]; simp)
      rcases hbase with rfl | rfl
      · exact (digitVal_isSome_cases e (digitVal_ten_isSome e he)).2.2.2.1
      · exact (digitVal_isSome_cases e he).2.2.2.1
  have hx : ascii "0x" = [48, 120] := by decide
  unfold hasHexPrefix
  rw [heq, List.cons_append, hx, Bool.and_eq_false_iff]
  right
  cases hrest : ds ++ tail with
  | nil => simp [lower, List.isPrefixOf]
  | cons c rest =>
    have hc := hsecond c (by rw [hrest]; rfl)
    simp [lower, List.isPrefixOf, Ne.symm hc]

theorem hasHexPrefix_append (hbase : base = 10 ∨ base = 16) (htail : Ends base tail) :
    (if hasHexPrefix base (w.pre ++ (w.digits ++ tail)) then 2 else 0) = w.pre.length := by
  rcases w.pre_cases with hnil | ⟨rfl, hpre⟩
  · rw [hnil, List.nil_append, w.hasHexPrefix_digits hbase htail]
    rfl
  · have hlower : lower w.pre = ascii "0x" ∧ w.pre.length = 2 := by
      rcases hpre with hpre | hpre
      · rw [hpre]
        decide
      · rw [hpre]
        decide
    have hhex : hasHexPrefix 16 (w.pre ++ (w.digits ++ tail)) = true := by
      unfold hasHexPrefix
      rw [lower_append, hlower.1, Bool.and_eq_true_iff]
      exact ⟨rfl, List.isPrefixOf_iff_prefix.mpr (List.prefix_append _ _)⟩
    rw [hhex, if_pos rfl, hlower.2]

/-- No part of a number is a NUL. -/
theorem notMem_zero (hbase : base = 10 ∨ base = 16) : (0 : UInt8) ∉ w.bytes := by
  have hdigit : (digitVal base 0).isSome = false := by
    rcases hbase with rfl | rfl <;> decide
  intro hmem
  simp only [bytes, List.mem_append] at hmem
  rcases hmem with h | h | h | h
  · exact absurd (w.blanks_all 0 h) (by decide)
  · rcases w.sign_cases with hs | hs | hs <;> rw [hs] at h <;> revert h <;> decide
  · rcases w.pre_cases with hp | ⟨-, hp | hp⟩ <;> rw [hp] at h <;> revert h <;> decide
  · rw [w.digits_all 0 h] at hdigit
    cases hdigit

end

/-! ### Reading -/

/-- **A number is read to its end.** -/
theorem strtoull_append (hbase : base = 10 ∨ base = 16) (w : Spelling base) {tail : Bytes}
    (htail : Ends base tail) (hle : w.magnitude ≤ ullongMax) :
    strtoull base (w.bytes ++ tail) = ⟨w.value, w.bytes.length, false⟩ := by
  have htext : w.bytes ++ tail = w.blanks ++ (w.sign ++ (w.pre ++ (w.digits ++ tail))) := by
    simp only [bytes, List.append_assoc]
  have hblanks : (w.bytes ++ tail).takeWhile isSpace = w.blanks := by
    rw [htext]
    exact takeWhile_append_of_head w.blanks_all (w.head_not_space hbase tail)
  have hsign : signOf ((w.bytes ++ tail).drop w.blanks.length) =
      (w.sign.length, decide (w.sign = [45])) := by
    rw [htext, List.drop_left]
    exact w.signOf_append hbase tail
  have hskip : (if hasHexPrefix base ((w.bytes ++ tail).drop (w.blanks.length + w.sign.length)) then 2
      else 0) = w.pre.length := by
    rw [htext, ← List.drop_drop, List.drop_left, List.drop_left]
    exact w.hasHexPrefix_append hbase htail
  have hdigits : digitRun base ((w.bytes ++ tail).drop
      (w.blanks.length + w.sign.length + w.pre.length)) = w.digits := by
    rw [htext, ← List.drop_drop, ← List.drop_drop, List.drop_left, List.drop_left, List.drop_left]
    exact digitRun_append w.digits_all htail.1
  have hne : w.digits.isEmpty = false := by simpa using w.digits_ne
  have hlength : w.blanks.length + w.sign.length + w.pre.length + w.digits.length = w.bytes.length := by
    simp only [bytes, List.length_append]
    omega
  have hover : ¬ ullongMax < digitsValue base w.digits := Nat.not_lt.mpr hle
  unfold strtoull
  simp only [hblanks, hsign, hskip, hdigits, hne, Bool.false_eq_true, if_false, hlength]
  rw [if_neg hover]
  simp only [decide_eq_true_eq]
  rfl

end Spelling

/-- A text and its sign. -/
theorem exists_sign (s : Bytes) : ∃ sign rest, s = sign ++ rest ∧
    (sign = [] ∨ sign = [43] ∨ sign = [45]) ∧ signOf s = (sign.length, decide (sign = [45])) := by
  cases s with
  | nil => exact ⟨[], [], rfl, .inl rfl, rfl⟩
  | cons c s =>
    by_cases hminus : c = 45
    · exact ⟨[45], s, by rw [hminus]; rfl, .inr (.inr rfl), by simp [signOf, hminus]⟩
    by_cases hplus : c = 43
    · exact ⟨[43], s, by rw [hplus]; rfl, .inr (.inl rfl), by simp [signOf, hplus]⟩
    · exact ⟨[], c :: s, rfl, .inl rfl, by simp [signOf, hminus, hplus]⟩

/-- A text and its hexadecimal prefix. -/
theorem exists_pre (base : ℕ) (s : Bytes) : ∃ pre rest, s = pre ++ rest ∧
    (pre = [] ∨ base = 16 ∧ (pre = ascii "0x" ∨ pre = ascii "0X")) ∧
    (if hasHexPrefix base s then 2 else 0) = pre.length := by
  have hzero : ∀ c : UInt8, toLower c = 48 → c = 48 := by decide +kernel
  have hx : ∀ c : UInt8, toLower c = 120 → c = 120 ∨ c = 88 := by decide +kernel
  by_cases hpre : hasHexPrefix base s = true
  · have hboth := hpre
    unfold hasHexPrefix at hboth
    rw [Bool.and_eq_true_iff, beq_iff_eq, List.isPrefixOf_iff_prefix] at hboth
    obtain ⟨hbase, rest, hrest⟩ := hboth
    have hascii : ascii "0x" = [48, 120] := by decide
    rw [hascii] at hrest
    rcases s with _ | ⟨c, _ | ⟨d, s⟩⟩
    · simp [lower] at hrest
    · simp [lower] at hrest
    · obtain ⟨hc, htail⟩ := List.cons.inj hrest
      obtain ⟨hd, -⟩ := List.cons.inj htail
      obtain rfl := hzero c hc.symm
      refine ⟨[48, d], s, rfl, .inr ⟨hbase, ?_⟩, by rw [if_pos hpre]; rfl⟩
      rcases hx d hd.symm with rfl | rfl
      · exact .inl (by decide)
      · exact .inr (by decide)
  · exact ⟨[], s, rfl, .inl rfl, by rw [if_neg hpre]; rfl⟩

/-- A text and its digits. -/
theorem exists_digitRun (base : ℕ) (s : Bytes) :
    ∃ tail, s = digitRun base s ++ tail ∧ AllDigits base (digitRun base s) ∧ StopsDigits base tail := by
  refine ⟨s.dropWhile fun c => (digitVal base c).isSome, List.takeWhile_append_dropWhile.symm, ?_, ?_⟩
  · intro c hc
    exact List.mem_takeWhile_imp (p := fun c => (digitVal base c).isSome) hc
  · intro c hc
    have hnot := List.head?_dropWhile_not (fun c => (digitVal base c).isSome) s
    rw [Option.mem_def.mp hc] at hnot
    simpa using hnot

/-- **Nothing else is read.**  What `strtoull` reads without an overflow, and does not stop in at an
`x`, is a number. -/
theorem exists_spelling {base : ℕ} {s : Bytes} (hstop : (strtoull base s).stop ≠ 0)
    (hrange : (strtoull base s).range = false)
    (hend : ∀ c ∈ (s.drop (strtoull base s).stop).head?, toLower c ≠ 120) :
    ∃ (w : Spelling base) (tail : Bytes), s = w.bytes ++ tail ∧ Spelling.Ends base tail ∧
      w.magnitude ≤ ullongMax := by
  -- the blanks, the sign, the prefix and the digits that `strtoull` goes over
  obtain ⟨sign, s₁, hs₁, hsign_cases, hsign⟩ := exists_sign (s.dropWhile isSpace)
  obtain ⟨pre, s₂, rfl, hpre_cases, hpre⟩ := exists_pre base s₁
  obtain ⟨tail, hs₂, hdigits, htail⟩ := exists_digitRun base s₂
  set blanks := s.takeWhile isSpace with hblanks
  set digits := digitRun base s₂ with hdigits_def
  have hs : s = blanks ++ (sign ++ (pre ++ s₂)) := by
    rw [← hs₁]
    exact List.takeWhile_append_dropWhile.symm
  have hdrop : s.drop blanks.length = sign ++ (pre ++ s₂) := by
    conv_lhs => rw [hs]
    exact List.drop_left
  have hdrop₁ : s.drop (blanks.length + sign.length) = pre ++ s₂ := by
    rw [← List.drop_drop, hdrop, List.drop_left]
  have hdrop₂ : s.drop (blanks.length + sign.length + pre.length) = s₂ := by
    rw [← List.drop_drop, hdrop₁, List.drop_left]
  rw [hs₁] at hsign
  have hread : strtoull base s =
      if digits.isEmpty then
        if pre.length = 2 then ⟨0, blanks.length + sign.length + 1, false⟩ else ⟨0, 0, false⟩
      else if ullongMax < digitsValue base digits then
        ⟨ullongMax, blanks.length + sign.length + pre.length + digits.length, true⟩
      else
        ⟨if decide (sign = [45]) then (2 ^ 64 - digitsValue base digits) % 2 ^ 64
          else digitsValue base digits,
          blanks.length + sign.length + pre.length + digits.length, false⟩ := by
    unfold strtoull
    simp only [← hblanks, hdrop, hsign, hdrop₁, hpre, hdrop₂, ← hdigits_def]
  -- without a digit nothing is converted
  have hne : digits ≠ [] := by
    intro hempty
    rw [hempty, List.isEmpty_nil, if_pos rfl] at hread
    rcases hpre_cases with hnil | ⟨-, hhex⟩
    · rw [hnil] at hread
      exact hstop (congrArg StrTo.stop hread)
    · -- `0x` without digits stops in the `x`
      have hx : ∃ c, toLower c = 120 ∧ pre = [48, c] := by
        rcases hhex with h | h
        · exact ⟨120, by decide, by rw [h]; decide⟩
        · exact ⟨88, by decide, by rw [h]; decide⟩
      obtain ⟨c, hc, rfl⟩ := hx
      have hat : s.drop (blanks.length + sign.length + 1) = c :: s₂ := by
        rw [← List.drop_drop, hdrop₁]
        rfl
      refine hend c ?_ hc
      rw [hread]
      show c ∈ (s.drop (blanks.length + sign.length + 1)).head?
      rw [hat]
      rfl
  have hnotEmpty : digits.isEmpty = false := by simpa using hne
  rw [hnotEmpty, if_neg Bool.false_ne_true] at hread
  -- the number is within the range, since no overflow is reported
  have hle : digitsValue base digits ≤ ullongMax := by
    by_contra hgt
    rw [if_pos (Nat.not_le.mp hgt)] at hread
    rw [hread] at hrange
    cases hrange
  rw [if_neg (Nat.not_lt.mpr hle)] at hread
  have htail' : ∀ c ∈ tail.head?, toLower c ≠ 120 := by
    have hat : s.drop (strtoull base s).stop = tail := by
      rw [hread]
      show s.drop (blanks.length + sign.length + pre.length + digits.length) = tail
      rw [← List.drop_drop, hdrop₂, hs₂]
      exact List.drop_left
    rwa [hat] at hend
  refine ⟨⟨blanks, sign, pre, digits, ?_, hsign_cases, hpre_cases, hne, hdigits⟩, tail, ?_,
    ⟨htail, htail'⟩, hle⟩
  · intro c hc
    exact List.mem_takeWhile_imp hc
  · show s = blanks ++ (sign ++ (pre ++ digits)) ++ tail
    simp only [List.append_assoc]
    rw [← hs₂]
    exact hs

end ByteString
