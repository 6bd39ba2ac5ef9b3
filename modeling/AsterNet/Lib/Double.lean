import AsterNet.Lib.Json
import Mathlib.Data.List.DropRight
import Mathlib.Data.Nat.Log

/-!
# The text of a double

`streamText` is what `operator<<` writes of a `double` in the classic locale with the default flags: the `%g` of
`printf` with six significant digits.  The number itself is the unpacked float of the core library.

`reads_streamText` says that the text of a finite number is a number of JSON, and `finite_quotient` that a
quotient of counts is finite.
-/

namespace Double

open ByteString Json Float.Model
open Float.Model.UnpackedFloat (Sign Accuracy ExtendedMantissa shiftToTargetExponent shiftToExponent
  decreaseExponent roundWithAccuracy)

/-- The quotient of two counts, each as a `double` first. -/
def quotient (a b : ℕ) : UnpackedFloat :=
  UnpackedFloat.div Format.binary64 (UnpackedFloat.ofNat Format.binary64 a) (UnpackedFloat.ofNat Format.binary64 b)

/-! ### Significant digits -/

/-- The whole number nearest to a fraction, the even one of two. -/
def roundHalfEven (num den : ℕ) : ℕ :=
  let q := num / den
  let r := num % den
  if 2 * r < den ∨ 2 * r = den ∧ q % 2 = 0 then q else q + 1

/-- The exponent of ten in the first digit of a positive fraction. -/
def decimalExponent (num den : ℕ) : ℤ :=
  if den ≤ num then (Nat.log 10 (num / den) : ℤ) else -(Nat.clog 10 ((den + num - 1) / num) : ℤ)

/-- The exponent of the first digit and the digits, with `p` digits behind the first: the `%e` of `printf`. -/
def significand (p num den : ℕ) : ℤ × ℕ :=
  let x := decimalExponent num den
  let scale := (p : ℤ) - x
  let digits := roundHalfEven (num * 10 ^ scale.toNat) (den * 10 ^ (-scale).toNat)
  if digits = 10 ^ (p + 1) then (x + 1, 10 ^ p) else (x, digits)

/-! ### The text -/

/-- Digits without the zeros at their end. -/
def stripZeros (ds : Bytes) : Bytes := ds.rdropWhile (· == 48)

/-- The digits behind the point, with the point. -/
def fractionText (ds : Bytes) : Bytes := if stripZeros ds = [] then [] else 46 :: stripZeros ds

/-- The exponent, of two digits at least. -/
def exponentText (x : ℤ) : Bytes :=
  101 :: (if x < 0 then 45 else 43) :: (if x.natAbs < 10 then 48 :: decimal x.natAbs else decimal x.natAbs)

/-- The whole part, the fraction and the exponent that `%g` writes of a positive fraction. -/
def generalParts (p num den : ℕ) : Bytes × Bytes × Bytes :=
  let s := significand p num den
  let digits := decimal s.2
  if s.1 < -4 ∨ (p : ℤ) < s.1 then (digits.take 1, fractionText (digits.drop 1), exponentText s.1)
  else if s.1 < 0 then ([48], fractionText (List.replicate (-s.1 - 1).toNat 48 ++ digits), [])
  else (digits.take (s.1.toNat + 1), fractionText (digits.drop (s.1.toNat + 1)), [])

/-- `%g` of a positive fraction. -/
def generalText (p num den : ℕ) : Bytes :=
  let parts := generalParts p num den
  parts.1 ++ (parts.2.1 ++ parts.2.2)

/-- A minus sign, or nothing. -/
def signText : Sign → Bytes
  | .negative => [45]
  | .positive => []

/-- What `operator<<` writes of a `double`. -/
def streamText : UnpackedFloat → Bytes
  | .notANumber => ascii "nan"
  | .infinity sign => signText sign ++ ascii "inf"
  | .zero sign => signText sign ++ [48]
  | .finite sign mantissa exponent _ =>
    signText sign ++ generalText 5 (mantissa * 2 ^ exponent.toNat) (2 ^ (-exponent).toNat)

/-! ### The text is a number of JSON -/

theorem stripZeros_allDigits {ds : Bytes} (h : AllDigits 10 ds) : AllDigits 10 (stripZeros ds) :=
  fun c hc => h c ((List.rdropWhile_prefix _ ds).subset hc)

theorem fractionText_cases {ds : Bytes} (h : AllDigits 10 ds) :
    fractionText ds = [] ∨ ∃ ds', ds' ≠ [] ∧ AllDigits 10 ds' ∧ fractionText ds = 46 :: ds' := by
  unfold fractionText
  split_ifs with hnil
  · exact .inl rfl
  · exact .inr ⟨stripZeros ds, hnil, stripZeros_allDigits h, rfl⟩

theorem exponentText_cases (x : ℤ) :
    ∃ s ds, (s = 43 ∨ s = 45) ∧ ds ≠ [] ∧ AllDigits 10 ds ∧ exponentText x = 101 :: s :: ds := by
  refine ⟨_, _, ?_, ?_, ?_, rfl⟩
  · split_ifs <;> simp
  · split_ifs
    · simp
    · exact decimal_ne_nil _
  · split_ifs
    · intro c hc
      rcases List.mem_cons.mp hc with rfl | hc
      · decide
      · exact decimal_allDigits _ c hc
    · exact decimal_allDigits _

/-- The first digits of a number begin with no zero, or are one. -/
theorem take_decimal_head (m n : ℕ) :
    (decimal m).take (n + 1) = [48] ∨ ((decimal m).take (n + 1)).head? ≠ some 48 := by
  rcases decimal_head m with heq | hhead
  · rw [heq]
    simp
  · right
    rwa [List.head?_take, if_neg (Nat.succ_ne_zero n)]

/-- The parts that `%g` writes are those of a number. -/
def generalNumber (sign : Sign) (p num den : ℕ) : NumberText where
  sign := signText sign
  whole := (generalParts p num den).1
  fraction := (generalParts p num den).2.1
  exponent := (generalParts p num den).2.2
  sign_cases := by cases sign <;> simp [signText]
  whole_ne := by
    unfold generalParts
    dsimp only
    split_ifs <;> simp [decimal_ne_nil]
  whole_all := by
    unfold generalParts
    dsimp only
    split_ifs <;> dsimp only
    · exact fun c hc => decimal_allDigits _ c (List.mem_of_mem_take hc)
    · decide
    · exact fun c hc => decimal_allDigits _ c (List.mem_of_mem_take hc)
  whole_head := by
    unfold generalParts
    dsimp only
    split_ifs <;> dsimp only
    · exact take_decimal_head _ 0
    · exact .inl rfl
    · exact take_decimal_head _ _
  fraction_cases := by
    have hdigits : ∀ m n : ℕ, AllDigits 10 ((decimal m).drop n) :=
      fun m n c hc => decimal_allDigits m c (List.mem_of_mem_drop hc)
    unfold generalParts
    dsimp only
    split_ifs <;> dsimp only
    · exact fractionText_cases (hdigits _ _)
    · refine fractionText_cases fun c hc => ?_
      rcases List.mem_append.mp hc with hc | hc
      · rw [List.eq_of_mem_replicate hc]
        decide
      · exact decimal_allDigits _ c hc
    · exact fractionText_cases (hdigits _ _)
  exponent_cases := by
    unfold generalParts
    dsimp only
    split_ifs <;> dsimp only
    · exact .inr (exponentText_cases _)
    · exact .inl rfl
    · exact .inl rfl

/-- It is neither an infinity nor not a number. -/
def Finite : UnpackedFloat → Prop
  | .zero _ | .finite .. => True
  | .infinity _ | .notANumber => False

/-- **The text of a finite number stands for it.** -/
theorem reads_streamText {x : UnpackedFloat} (h : Finite x) :
    Reads (.number (chars (streamText x))) (streamText x) := by
  cases x with
  | infinity sign => exact h.elim
  | notANumber => exact h.elim
  | zero sign =>
    let w : NumberText :=
      { sign := signText sign
        whole := [48]
        sign_cases := by cases sign <;> simp [signText]
        whole_ne := by simp
        whole_all := by decide
        whole_head := .inl rfl
        fraction_cases := .inl rfl
        exponent_cases := .inl rfl }
    exact w.reads_bytes
  | finite sign mantissa exponent hpos =>
    exact (generalNumber sign 5 (mantissa * 2 ^ exponent.toNat) (2 ^ (-exponent).toNat)).reads_bytes

example : streamText (quotient 2 3) = ascii "0.666667" := by decide +kernel

example : streamText (quotient 1 99999) = ascii "1.00001e-05" := by decide +kernel

/-! ### A quotient of counts -/

theorem mantissa_shiftRight (em : ExtendedMantissa) (n : ℕ) : (em >>> n).mantissa = em.mantissa / 2 ^ n := by
  change (n.repeat ExtendedMantissa.shiftRightOne em).mantissa = _
  induction n with
  | zero => simp [Nat.repeat]
  | succ n ih =>
    rw [Nat.repeat, pow_succ, ← Nat.div_div_eq_div_mul, ← ih]
    rfl

theorem mantissa_le_roundedMantissa (em : ExtendedMantissa) : em.mantissa ≤ em.roundedMantissa := by
  obtain ⟨m, r, s⟩ := em
  cases r <;> cases s <;>
    simp [ExtendedMantissa.roundedMantissa, ExtendedMantissa.accuracy, Accuracy.roundToNearestEven]

/-- The shift keeps the first bit of a mantissa whose exponent is none too small. -/
theorem mantissa_shiftToTargetExponent_pos {spec : Format} {m : ℕ} {e : ℤ} (hm : 0 < m) (he : spec.minExponent ≤ e)
    (acc : Accuracy) : 0 < (shiftToTargetExponent spec m e acc).1.mantissa ∧
      spec.minExponent ≤ (shiftToTargetExponent spec m e acc).2 := by
  unfold shiftToTargetExponent shiftToExponent
  dsimp only
  have hmantissa : (ExtendedMantissa.ofMantissaAndAccuracy m acc).mantissa = m := by
    unfold ExtendedMantissa.ofMantissaAndAccuracy
    split <;> rfl
  constructor
  · rw [mantissa_shiftRight, hmantissa]
    refine Nat.div_pos (le_trans (Nat.pow_le_pow_right (by decide) ?_) (Nat.log2_self_le hm.ne')) (Nat.two_pow_pos _)
    unfold Format.targetExponent totalExponent Format.mantissaBits
    omega
  · omega

/-- A positive number of an exponent that is none too small does not become zero. -/
theorem roundWithAccuracy_ne_zero {spec : Format} {m : ℕ} {e : ℤ} (hm : 0 < m) (he : spec.minExponent ≤ e)
    (sign : Sign) (acc : Accuracy) :
    ∃ m' e' hpos, roundWithAccuracy spec sign m e acc = .finite sign m' e' hpos := by
  obtain ⟨hfirst, hexponent⟩ := mantissa_shiftToTargetExponent_pos hm he acc
  have hrounded := lt_of_lt_of_le hfirst (mantissa_le_roundedMantissa _)
  obtain ⟨hsecond, -⟩ := mantissa_shiftToTargetExponent_pos hrounded hexponent .exact
  unfold roundWithAccuracy
  dsimp only
  rw [dif_neg hsecond.ne']
  exact ⟨_, _, _, rfl⟩

theorem finite_roundWithAccuracy (spec : Format) (sign : Sign) (m : ℕ) (e : ℤ) (acc : Accuracy) :
    Finite (roundWithAccuracy spec sign m e acc) := by
  unfold roundWithAccuracy
  dsimp only
  -- the rounded mantissa may be zero
  by_cases hzero : (shiftToTargetExponent spec (shiftToTargetExponent spec m e acc).1.roundedMantissa
      (shiftToTargetExponent spec m e acc).2 .exact).1.mantissa = 0
  · rw [dif_pos hzero]
    trivial
  · rw [dif_neg hzero]
    trivial

/-- A count that is not zero is a finite number that is not zero. -/
theorem exists_ofNat_eq {n : ℕ} (hn : n ≠ 0) :
    ∃ m e hpos, UnpackedFloat.ofNat Format.binary64 n = .finite .positive m e hpos := by
  obtain ⟨n, rfl⟩ := Nat.exists_eq_succ_of_ne_zero hn
  have hround : UnpackedFloat.ofNat Format.binary64 (n + 1) =
      UnpackedFloat.round Format.binary64 .positive (n + 1) 0 := rfl
  rw [hround]
  unfold UnpackedFloat.round decreaseExponent
  dsimp only
  have hpos : 0 < (n + 1) <<< (0 - Format.binary64.targetExponent (totalExponent (n + 1) 0)).toNat := by
    rw [Nat.shiftLeft_eq]
    positivity
  refine roundWithAccuracy_ne_zero hpos ?_ _ _
  have hmin : Format.binary64.minExponent ≤ 0 := by decide
  unfold Format.targetExponent
  omega

/-- **A quotient of counts is finite**, unless it is by zero. -/
theorem finite_quotient (a : ℕ) {b : ℕ} (hb : b ≠ 0) : Finite (quotient a b) := by
  obtain ⟨m, e, hpos, heq⟩ := exists_ofNat_eq hb
  unfold quotient
  rw [heq]
  by_cases ha : a = 0
  · subst ha
    trivial
  · obtain ⟨m', e', hpos', heq'⟩ := exists_ofNat_eq ha
    rw [heq']
    exact finite_roundWithAccuracy _ _ _ _ _

end Double
