import AsterNet.Lib.ByteString
import Mathlib.Data.Nat.Digits.Defs
import Mathlib.Data.Nat.Digits.Lemmas
import Mathlib.Tactic.IntervalCases

/-!
# Numerals in byte strings

`strtoull` and `atoi` as the C library defines them, sign, leading white space and `0x` included,
and `decimal`, the text of `std::to_string`.

`strtoull_of_digits` is the reading of a run of digits and `strtoull_decimal` the round trip; the
value of a digit run is Mathlib's `Nat.ofDigits`.
-/

namespace ByteString

/-- The value of a letter or digit as a digit of base `base`. -/
def digitVal (base : ℕ) (c : UInt8) : Option ℕ :=
  let v := if isDigit c then some (c.toNat - 48)
    else if 97 ≤ c && c ≤ 122 then some (c.toNat - 87)
    else if 65 ≤ c && c ≤ 90 then some (c.toNat - 55) else none
  v.filter (· < base)

/-- The longest run of digits at the front. -/
def digitRun (base : ℕ) (s : Bytes) : Bytes := s.takeWhile fun c => (digitVal base c).isSome

/-- The number a digit run denotes, most significant digit first. -/
def digitsValue (base : ℕ) (ds : Bytes) : ℕ :=
  Nat.ofDigits base (ds.map fun c => (digitVal base c).getD 0).reverse

/-- What a `strto*` call reports: the value, the offset of `*endptr`, and `errno == ERANGE`. -/
structure StrTo where
  value : ℕ
  stop : ℕ
  range : Bool
  deriving DecidableEq, Repr

/-- `ULLONG_MAX`. -/
def ullongMax : ℕ := 2 ^ 64 - 1

/-- Length of the sign and whether it is a minus. -/
def signOf : Bytes → ℕ × Bool
  | c :: _ => if c = 45 then (1, true) else if c = 43 then (1, false) else (0, false)
  | [] => (0, false)

/-- `0x` or `0X` in front, for base 16. -/
def hasHexPrefix (base : ℕ) (s : Bytes) : Bool :=
  base == 16 && (ascii "0x").isPrefixOf (lower s)

/-- `strtoull(s, &end, base)` for bases 10 and 16. -/
def strtoull (base : ℕ) (s : Bytes) : StrTo :=
  let blanks := (s.takeWhile isSpace).length
  let sign := signOf (s.drop blanks)
  let start := blanks + sign.1
  let skip := if hasHexPrefix base (s.drop start) then 2 else 0
  let ds := digitRun base (s.drop (start + skip))
  if ds.isEmpty then
    -- `0x` without digits is the number zero, ended by the `x`
    if skip = 2 then ⟨0, start + 1, false⟩ else ⟨0, 0, false⟩
  else
    let v := digitsValue base ds
    let stop := start + skip + ds.length
    if ullongMax < v then ⟨ullongMax, stop, true⟩
    else ⟨if sign.2 then (2 ^ 64 - v) % 2 ^ 64 else v, stop, false⟩

/-- `atoi(s)`: `strtol` in base 10, saturated to `long`, cast to `int`. -/
def atoi (s : Bytes) : ℤ :=
  let rest := s.dropWhile isSpace
  let sign := signOf rest
  let v : ℤ := digitsValue 10 (digitRun 10 (rest.drop sign.1))
  let long := if sign.2 then max (-2 ^ 63) (-v) else min (2 ^ 63 - 1) v
  Int.bmod long (2 ^ 32)

/-- The byte of a digit. -/
def digitByte (d : ℕ) : UInt8 := if d < 10 then (48 + d).toUInt8 else (87 + d).toUInt8

/-- The shortest numeral of a number, in lower case. -/
def numeral (base n : ℕ) : Bytes :=
  if n = 0 then [48] else ((Nat.digits base n).map digitByte).reverse

/-- `std::to_string` of an unsigned number. -/
def decimal (n : ℕ) : Bytes := numeral 10 n

/-! ### Runs of digits -/

/-- All bytes are digits of the base. -/
def AllDigits (base : ℕ) (ds : Bytes) : Prop := ∀ c ∈ ds, (digitVal base c).isSome

instance (base : ℕ) (ds : Bytes) : Decidable (AllDigits base ds) :=
  decidable_of_iff (ds.all fun c => (digitVal base c).isSome) List.all_eq_true

/-- The text does not go on with a digit of the base. -/
def StopsDigits (base : ℕ) (s : Bytes) : Prop := ∀ c ∈ s.head?, digitVal base c = none

theorem digitRun_append {base : ℕ} {ds s : Bytes} (hds : AllDigits base ds)
    (hs : StopsDigits base s) : digitRun base (ds ++ s) = ds := by
  unfold digitRun
  rw [List.takeWhile_append_of_pos hds]
  cases s with
  | nil => simp
  | cons c s => simp [hs c rfl]

/-- No digit is white space, a sign or the letter `x`. -/
theorem digitVal_isSome_cases : ∀ c : UInt8, (digitVal 16 c).isSome →
    isSpace c = false ∧ c ≠ 45 ∧ c ≠ 43 ∧ toLower c ≠ 120 ∧ c ≠ 13 ∧ c ≠ 10 ∧ c ≠ 0 ∧ c ≠ 59 := by
  decide +kernel

theorem digitVal_ten_isSome : ∀ c : UInt8, (digitVal 10 c).isSome → (digitVal 16 c).isSome := by
  decide +kernel

/-- A run of digits that is not taken for a hexadecimal prefix is read to its end. -/
theorem strtoull_digits {base : ℕ} (hbase : base = 10 ∨ base = 16) {ds s : Bytes}
    (hne : ds ≠ []) (hds : AllDigits base ds) (hs : StopsDigits base s)
    (hx : ∀ c ∈ s.head?, toLower c ≠ 120) : strtoull base (ds ++ s) =
      if ullongMax < digitsValue base ds then ⟨ullongMax, ds.length, true⟩
      else ⟨digitsValue base ds, ds.length, false⟩ := by
  obtain ⟨d, ds', rfl⟩ := List.exists_cons_of_ne_nil hne
  have h16 : ∀ c ∈ d :: ds', (digitVal 16 c).isSome := by
    intro c hc
    rcases hbase with rfl | rfl
    · exact digitVal_ten_isSome c (hds c hc)
    · exact hds c hc
  obtain ⟨hsp, hminus, hplus, -⟩ := digitVal_isSome_cases d (h16 d (List.mem_cons_self ..))
  -- `0x` is not taken for a prefix: no digit is an `x`
  have hpre : hasHexPrefix base (d :: (ds' ++ s)) = false := by
    have hsecond : ∀ c ∈ (ds' ++ s).head?, toLower c ≠ 120 := by
      intro c hc
      cases ds' with
      | nil => exact hx c hc
      | cons e ds' =>
        obtain rfl : e = c := by simpa using hc
        exact (digitVal_isSome_cases e (h16 e (by simp))).2.2.2.1
    unfold hasHexPrefix
    rw [Bool.and_eq_false_iff]
    right
    cases hrest : ds' ++ s with
    | nil => simp [ascii, lower, List.isPrefixOf]
    | cons c t =>
      have hc := hsecond c (by rw [hrest]; rfl)
      rw [show ascii "0x" = [48, 120] from by decide]
      simp [lower, List.isPrefixOf, Ne.symm hc]
  simp only [strtoull, List.cons_append, List.takeWhile_cons, hsp, Bool.false_eq_true, ↓reduceIte,
    List.length_nil, List.drop_zero, signOf, hminus, hplus, Nat.add_zero, hpre]
  rw [← List.cons_append, digitRun_append hds hs]
  simp

/-- **A run of digits is read as its value**, when it does not overflow. -/
theorem strtoull_of_digits {base : ℕ} (hbase : base = 10 ∨ base = 16) {ds s : Bytes}
    (hne : ds ≠ []) (hds : AllDigits base ds) (hs : StopsDigits base s)
    (hx : ∀ c ∈ s.head?, toLower c ≠ 120) (hv : digitsValue base ds ≤ ullongMax) :
    strtoull base (ds ++ s) = ⟨digitsValue base ds, ds.length, false⟩ := by
  rw [strtoull_digits hbase hne hds hs hx, if_neg (not_lt.mpr hv)]

/-! ### Numerals -/

theorem numeral_ne_nil (base n : ℕ) : numeral base n ≠ [] := by
  unfold numeral
  split_ifs with h
  · simp
  · simpa using Nat.digits_ne_nil_iff_ne_zero.mpr h

/-- A digit and its byte. -/
theorem digitVal_digitByte {base : ℕ} (hbase : base = 10 ∨ base = 16) :
    ∀ d < base, digitVal base (digitByte d) = some d := by
  rcases hbase with rfl | rfl <;> decide +kernel

theorem one_lt_base {base : ℕ} (hbase : base = 10 ∨ base = 16) : 1 < base := by
  omega

theorem numeral_allDigits {base : ℕ} (hbase : base = 10 ∨ base = 16) (n : ℕ) :
    AllDigits base (numeral base n) := by
  unfold numeral AllDigits
  split_ifs with h
  · rcases hbase with rfl | rfl <;> decide +kernel
  · intro c hc
    rw [List.mem_reverse, List.mem_map] at hc
    obtain ⟨d, hd, rfl⟩ := hc
    rw [digitVal_digitByte hbase d (Nat.digits_lt_base (one_lt_base hbase) hd)]
    rfl

theorem digitsValue_numeral {base : ℕ} (hbase : base = 10 ∨ base = 16) (n : ℕ) :
    digitsValue base (numeral base n) = n := by
  unfold numeral digitsValue
  split_ifs with h
  · subst h
    rcases hbase with rfl | rfl <;> decide
  · rw [List.map_reverse, List.reverse_reverse, List.map_map]
    have hid : (Nat.digits base n).map ((fun c => (digitVal base c).getD 0) ∘ digitByte) =
        Nat.digits base n := by
      rw [List.map_congr_left (g := id), List.map_id]
      intro d hd
      rw [Function.comp_apply,
        digitVal_digitByte hbase d (Nat.digits_lt_base (one_lt_base hbase) hd)]
      rfl
    rw [hid, Nat.ofDigits_digits]

theorem decimal_ne_nil (n : ℕ) : decimal n ≠ [] := numeral_ne_nil 10 n

theorem decimal_allDigits (n : ℕ) : AllDigits 10 (decimal n) := numeral_allDigits (.inl rfl) n

theorem digitsValue_decimal (n : ℕ) : digitsValue 10 (decimal n) = n :=
  digitsValue_numeral (.inl rfl) n

theorem decimal_inj {n n' : ℕ} : decimal n = decimal n' ↔ n = n' := by
  constructor
  · intro h
    rw [← digitsValue_decimal n, h, digitsValue_decimal]
  · rintro rfl
    rfl

/-- Digits that begin with no zero are the decimal of their value. -/
theorem decimal_digitsValue {ds : Bytes} (hne : ds ≠ []) (hds : AllDigits 10 ds) (hhead : ds.head? ≠ some 48) :
    decimal (digitsValue 10 ds) = ds := by
  have hbyte : ∀ b : UInt8, (digitVal 10 b).isSome →
      (digitVal 10 b).getD 0 < 10 ∧ digitByte ((digitVal 10 b).getD 0) = b ∧
        ((digitVal 10 b).getD 0 = 0 → b = 48) := by
    decide +kernel
  set values := (ds.map fun c => (digitVal 10 c).getD 0).reverse with hvalues
  have hnil : values ≠ [] := by simpa [hvalues] using hne
  have hdigits : Nat.digits 10 (Nat.ofDigits 10 values) = values := by
    refine Nat.digits_ofDigits 10 (by decide) values ?_ ?_
    · intro v hv
      rw [hvalues, List.mem_reverse, List.mem_map] at hv
      obtain ⟨b, hb, rfl⟩ := hv
      exact (hbyte b (hds b hb)).1
    · intro _
      obtain ⟨b, ds', rfl⟩ := List.exists_cons_of_ne_nil hne
      simp only [hvalues, List.map_cons, List.reverse_cons, List.getLast_append_singleton]
      exact fun hzero => hhead (congrArg some ((hbyte b (hds b List.mem_cons_self)).2.2 hzero))
  have hvalue : digitsValue 10 ds ≠ 0 := by
    intro hzero
    rw [digitsValue, ← hvalues] at hzero
    rw [hzero, Nat.digits_zero] at hdigits
    exact hnil hdigits.symm
  rw [decimal, numeral, if_neg hvalue, digitsValue, ← hvalues, hdigits, hvalues, ← List.map_reverse,
    List.reverse_reverse, List.map_map]
  exact (List.map_congr_left fun b hb => (hbyte b (hds b hb)).2.1).trans (List.map_id ds)

/-- A decimal is as long as its logarithm says. -/
theorem length_decimal {n : ℕ} (hn : n ≠ 0) : (decimal n).length = Nat.log 10 n + 1 := by
  rw [decimal, numeral, if_neg hn, List.length_reverse, List.length_map, Nat.length_digits 10 n (by decide) hn]
/-- Only digits stand in a decimal. -/
theorem notMem_decimal {c : UInt8} (hc : digitVal 10 c = none) (n : ℕ) : c ∉ decimal n := by
  intro hmem
  have hdigit := decimal_allDigits n c hmem
  rw [hc] at hdigit
  cases hdigit

/-- **Round trip** of `std::to_string` and `strtoull`. -/
theorem strtoull_decimal {n : ℕ} (hn : n ≤ ullongMax) :
    strtoull 10 (decimal n) = ⟨n, (decimal n).length, false⟩ := by
  have hstops : StopsDigits 10 [] := by simp [StopsDigits]
  have := strtoull_of_digits (.inl rfl) (decimal_ne_nil n) (decimal_allDigits n) hstops (by simp)
    (by rwa [digitsValue_decimal])
  rwa [List.append_nil, digitsValue_decimal] at this

/-- `atoi` of three decimal digits before a byte that is not one. -/
theorem atoi_of_digits {ds s : Bytes} (hne : ds ≠ []) (hds : AllDigits 10 ds)
    (hs : StopsDigits 10 s) (hv : digitsValue 10 ds < 2 ^ 31) :
    atoi (ds ++ s) = digitsValue 10 ds := by
  obtain ⟨d, ds', rfl⟩ := List.exists_cons_of_ne_nil hne
  obtain ⟨hsp, hminus, hplus, -⟩ := digitVal_isSome_cases d
    (digitVal_ten_isSome d (hds d (List.mem_cons_self ..)))
  simp only [atoi, List.cons_append, List.dropWhile_cons, hsp, Bool.false_eq_true, ↓reduceIte,
    signOf, hminus, hplus, List.drop_zero]
  rw [← List.cons_append, digitRun_append hds hs]
  generalize digitsValue 10 (d :: ds') = v at hv ⊢
  have hlong : min (2 ^ 63 - 1) (v : ℤ) = v := min_eq_right (by omega)
  rw [hlong, Int.bmod_eq_of_le (by omega) (by omega)]

end ByteString
