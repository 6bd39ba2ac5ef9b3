import AsterNet.Protocol.LengthPrefixedCodec

/-!
# The codec is a bijection onto its image

`isBijection_new`: what can be encoded is decoded to the same bytes, and nothing else is decoded at all.
Behind it stand the two readings of a length: `toNat_sizeOf` says which number four bytes stand for, and
`prefixOf_sizeOf` that they are the bytes of that number.
-/

namespace AsterNet

namespace LengthPrefixedCodec

/-- The laws of a codec for messages up to a limit. -/
structure IsBijection (codec : LengthPrefixedCodec) (limit : ℕ) : Prop where
  encode_ok_iff : ∀ plain wire, (codec.encode plain wire).1 = .ok ↔ plain.length ≤ limit
  decode_encode : ∀ plain wire plain', (codec.encode plain wire).1 = .ok →
    codec.decode (some (codec.encode plain wire).2) plain' = (.ok, plain)
  decode_ok_iff : ∀ plain wire plain' wire',
    codec.decode (some wire) plain' = (.ok, plain) ↔ codec.encode plain wire' = (.ok, wire)
  /-- What a message begins with, or goes on with, is not a message. -/
  proper : ∀ plain wire plain' wire' rest, rest ≠ [] → codec.encode plain wire' = (.ok, wire ++ rest) →
    (codec.decode (some wire) plain').1 ≠ .ok
  extended : ∀ plain wire plain' wire' rest, rest ≠ [] → codec.encode plain wire' = (.ok, wire) →
    (codec.decode (some (wire ++ rest)) plain').1 ≠ .ok
  overLimit : ∀ wire plain', limit + 4 < wire.length → (codec.decode (some wire) plain').1 ≠ .ok
  nullptr : ∀ plain', (codec.decode none plain').1 ≠ .ok
  encode_keeps : ∀ plain wire, (codec.encode plain wire).1 ≠ .ok → (codec.encode plain wire).2 = wire
  decode_keeps : ∀ wire plain', (codec.decode wire plain').1 ≠ .ok → (codec.decode wire plain').2 = plain'

/-! ### The length -/

/-- Bits put behind a number, as an addition. -/
theorem shiftLeft_or_eq (high low k : ℕ) (h : low < 2 ^ k) : high <<< k ||| low = high * 2 ^ k + low := by
  rw [← Nat.shiftLeft_add_eq_or_of_lt h, Nat.shiftLeft_eq]

theorem shiftLeft_or_four (a b c d : ℕ) (hb : b < 256) (hc : c < 256) (hd : d < 256) :
    a <<< 24 ||| b <<< 16 ||| c <<< 8 ||| d = ((a * 256 + b) * 256 + c) * 256 + d := by
  have htwo : a <<< 24 ||| b <<< 16 = (a * 256 + b) <<< 16 := by
    rw [shiftLeft_or_eq a _ 24 (by rw [Nat.shiftLeft_eq]; omega), Nat.shiftLeft_eq, Nat.shiftLeft_eq]
    omega
  have hthree : (a * 256 + b) <<< 16 ||| c <<< 8 = ((a * 256 + b) * 256 + c) <<< 8 := by
    rw [shiftLeft_or_eq _ _ 16 (by rw [Nat.shiftLeft_eq]; omega), Nat.shiftLeft_eq, Nat.shiftLeft_eq]
    omega
  rewrite [htwo, hthree, shiftLeft_or_eq _ _ 8 hd]
  rfl

/-- A byte put in its place, out of which no bit is shifted. -/
theorem toNat_shiftLeft (b : UInt8) (k : UInt32) (hk : k.toNat ≤ 24) :
    (b.toUInt32 <<< k).toNat = b.toNat <<< k.toNat := by
  have hb := b.toNat_lt
  have hmod : k.toNat % 32 = k.toNat := Nat.mod_eq_of_lt (by omega)
  rw [UInt32.toNat_shiftLeft, UInt8.toNat_toUInt32, hmod, Nat.shiftLeft_eq]
  apply Nat.mod_eq_of_lt
  calc b.toNat * 2 ^ k.toNat < 2 ^ 8 * 2 ^ k.toNat := Nat.mul_lt_mul_of_pos_right hb (Nat.two_pow_pos _)
    _ ≤ 2 ^ 8 * 2 ^ 24 := Nat.mul_le_mul_left _ (Nat.pow_le_pow_right (by omega) hk)

/-- The number four bytes stand for. -/
theorem toNat_sizeOf (b₀ b₁ b₂ b₃ : UInt8) :
    (sizeOf b₀ b₁ b₂ b₃).toNat =
      ((b₀.toNat * 256 + b₁.toNat) * 256 + b₂.toNat) * 256 + b₃.toNat := by
  unfold sizeOf
  rw [UInt32.toNat_or, UInt32.toNat_or, UInt32.toNat_or, toNat_shiftLeft _ _ (by decide),
    toNat_shiftLeft _ _ (by decide), toNat_shiftLeft _ _ (by decide), UInt8.toNat_toUInt32]
  exact shiftLeft_or_four _ _ _ _ b₁.toNat_lt b₂.toNat_lt b₃.toNat_lt

/-- A byte of a number. -/
theorem toNat_byteOf (size k : UInt32) (hk : k.toNat < 32) :
    (size >>> k &&& 0xff).toUInt8.toNat = size.toNat / 2 ^ k.toNat % 256 := by
  rw [UInt32.toNat_toUInt8, UInt32.toNat_and, UInt32.toNat_shiftRight, Nat.mod_eq_of_lt hk,
    Nat.shiftRight_eq_div_pow]
  show (_ &&& (2 ^ 8 - 1)) % 2 ^ 8 = _
  rw [Nat.and_two_pow_sub_one_eq_mod, Nat.mod_mod]

/-- The last byte of a number. -/
theorem toNat_lastByteOf (size : UInt32) : (size &&& 0xff).toUInt8.toNat = size.toNat % 256 := by
  have h := toNat_byteOf size 0 (by decide)
  rw [UInt32.shiftRight_zero] at h
  rw [h]
  exact congrArg (· % 256) (Nat.div_one _)

/-- A number is what its bytes say. -/
theorem sizeOf_prefixOf (size : UInt32) :
    sizeOf (size >>> 24 &&& 0xff).toUInt8 (size >>> 16 &&& 0xff).toUInt8 (size >>> 8 &&& 0xff).toUInt8
      (size &&& 0xff).toUInt8 = size := by
  apply UInt32.toNat_inj.mp
  rw [toNat_sizeOf, toNat_byteOf _ _ (by decide), toNat_byteOf _ _ (by decide),
    toNat_byteOf _ _ (by decide), toNat_lastByteOf]
  show ((size.toNat / 2 ^ 24 % 256 * 256 + size.toNat / 2 ^ 16 % 256) * 256 + size.toNat / 2 ^ 8 % 256)
    * 256 + size.toNat % 256 = size.toNat
  have hlt := size.toNat_lt
  omega

/-- Four bytes are those of the number they say. -/
theorem prefixOf_sizeOf (b₀ b₁ b₂ b₃ : UInt8) : prefixOf (sizeOf b₀ b₁ b₂ b₃) = [b₀, b₁, b₂, b₃] := by
  have hsize := toNat_sizeOf b₀ b₁ b₂ b₃
  have h₀ := b₀.toNat_lt
  have h₁ := b₁.toNat_lt
  have h₂ := b₂.toNat_lt
  have h₃ := b₃.toNat_lt
  unfold prefixOf
  congr 1
  · apply UInt8.toNat_inj.mp
    rw [toNat_byteOf _ _ (by decide), hsize]
    show _ / 2 ^ 24 % 256 = _
    omega
  congr 1
  · apply UInt8.toNat_inj.mp
    rw [toNat_byteOf _ _ (by decide), hsize]
    show _ / 2 ^ 16 % 256 = _
    omega
  congr 1
  · apply UInt8.toNat_inj.mp
    rw [toNat_byteOf _ _ (by decide), hsize]
    show _ / 2 ^ 8 % 256 = _
    omega
  congr 1
  · apply UInt8.toNat_inj.mp
    rw [toNat_lastByteOf, hsize]
    omega

theorem prefixOf_injective : Function.Injective prefixOf := by
  intro size size' h
  unfold prefixOf at h
  simp only [List.cons.injEq, and_true] at h
  obtain ⟨h₀, h₁, h₂, h₃⟩ := h
  rw [← sizeOf_prefixOf size, ← sizeOf_prefixOf size', h₀, h₁, h₂, h₃]

/-! ### The messages -/

/-- The wire form of a message. -/
def wireOf (plain : Bytes) : Bytes := prefixOf (UInt32.ofNat plain.length) ++ plain

/-- A message the codec carries. -/
def Fits (codec : LengthPrefixedCodec) (plain : Bytes) : Prop :=
  plain.length ≤ codec.maxMessageBytes ∧ plain.length ≤ 2 ^ 32 - 1

section

variable {codec : LengthPrefixedCodec} {plain wire plain' wire' : Bytes}

theorem length_wireOf (plain : Bytes) : (wireOf plain).length = 4 + plain.length := by
  exact List.length_append

theorem toNat_ofNat_length (h : codec.Fits plain) : (UInt32.ofNat plain.length).toNat = plain.length :=
  UInt32.toNat_ofNat_of_lt' (Nat.lt_of_le_pred (by decide) h.2)

theorem encode_of_fits (h : codec.Fits plain) : codec.encode plain wire = (.ok, wireOf plain) := by
  have hmax := h.1
  have hsize := h.2
  unfold encode
  rw [if_neg (by omega)]
  rfl

theorem encode_of_not_fits (h : ¬ codec.Fits plain) :
    codec.encode plain wire = (.errBufferTooSmall, wire) := by
  unfold encode
  unfold Fits at h
  rw [if_pos (by omega)]

theorem encode_eq_ok_iff :
    codec.encode plain wire' = (.ok, wire) ↔ codec.Fits plain ∧ wire = wireOf plain := by
  by_cases h : codec.Fits plain
  · rw [encode_of_fits h]
    simp [h, eq_comm]
  · rw [encode_of_not_fits h]
    simp [h]

theorem decode_wireOf (h : codec.Fits plain) :
    codec.decode (some (wireOf plain)) plain' = (.ok, plain) := by
  have hmax := h.1
  show (if codec.maxMessageBytes < (sizeOf _ _ _ _).toNat ∨ 4 + plain.length ≠ 4 + (sizeOf _ _ _ _).toNat
    then _ else (Result.ok, plain.take (sizeOf _ _ _ _).toNat)) = _
  rw [sizeOf_prefixOf, toNat_ofNat_length h, if_neg (by omega), List.take_length]

/-- Whatever is decoded is the wire form of a message that fits. -/
theorem fits_of_decode (h : codec.decode (some wire) plain' = (.ok, plain)) :
    codec.Fits plain ∧ wire = wireOf plain := by
  rcases wire with _ | ⟨b₀, _ | ⟨b₁, _ | ⟨b₂, _ | ⟨b₃, rest⟩⟩⟩⟩
  · simp [decode] at h
  · simp [decode] at h
  · simp [decode] at h
  · simp [decode] at h
  · have hlt := (sizeOf b₀ b₁ b₂ b₃).toNat_lt
    unfold decode at h
    dsimp only at h
    split_ifs at h with hcond hover
    · simp at h
    · simp at h
    · -- the length is that of what follows it
      push Not at hcond
      have hlength : rest.length = (sizeOf b₀ b₁ b₂ b₃).toNat := by omega
      obtain rfl : rest = plain := by
        have hplain := (Prod.mk.inj h).2
        rwa [← hlength, List.take_length] at hplain
      refine ⟨⟨by omega, by omega⟩, ?_⟩
      unfold wireOf
      rw [hlength, UInt32.ofNat_toNat, prefixOf_sizeOf]
      rfl

theorem decode_eq_ok_iff :
    codec.decode (some wire) plain' = (.ok, plain) ↔ codec.Fits plain ∧ wire = wireOf plain := by
  constructor
  · exact fits_of_decode
  · rintro ⟨hfits, rfl⟩
    exact decode_wireOf hfits

theorem decode_keeps_of_ne (wire : Option Bytes) (plain' : Bytes)
    (h : (codec.decode wire plain').1 ≠ .ok) :
    (codec.decode wire plain').2 = plain' := by
  unfold decode at h ⊢
  split
  · dsimp only at h ⊢
    split_ifs with hcond hover
    · rfl
    · rfl
    · rw [if_neg hcond] at h
      exact absurd rfl h
  · rfl

/-- A buffer that is decoded at all is the wire form of what it is decoded to. -/
theorem exists_of_decode_ok (h : (codec.decode (some wire) plain').1 = .ok) :
    ∃ plain, codec.Fits plain ∧ wire = wireOf plain := by
  have hdecode : codec.decode (some wire) plain' = (.ok, (codec.decode (some wire) plain').2) := by
    rw [← h]
  exact ⟨_, fits_of_decode hdecode⟩

/-- The length at its front tells a wire form from what it begins with. -/
theorem wireOf_ne_append {plain₁ plain₂ rest : Bytes} (h₁ : codec.Fits plain₁) (h₂ : codec.Fits plain₂)
    (hrest : rest ≠ []) : wireOf plain₁ ≠ wireOf plain₂ ++ rest := by
  intro heq
  unfold wireOf at heq
  rw [List.append_assoc] at heq
  obtain ⟨hsize, hplain⟩ := List.append_inj heq rfl
  have hlength : plain₁.length = plain₂.length := by
    rw [← toNat_ofNat_length h₁, ← toNat_ofNat_length h₂, prefixOf_injective hsize]
  rw [hplain, List.length_append] at hlength
  exact hrest (List.length_eq_zero_iff.mp (by omega))

end

/-- **The codec is a bijection** from the messages up to its limit onto their wire forms. -/
theorem isBijection_new (maxMessageBytes : ℕ) :
    (new maxMessageBytes).IsBijection (min (max maxMessageBytes 1) (2 ^ 32 - 1)) := by
  -- the limit of the codec is at least one byte, and the prefix has four
  have hfits : ∀ plain, (new maxMessageBytes).Fits plain ↔
      plain.length ≤ min (max maxMessageBytes 1) (2 ^ 32 - 1) := by
    intro plain
    have hmax : (new maxMessageBytes).maxMessageBytes = max maxMessageBytes 1 := by
      show (if maxMessageBytes = 0 then 1 else maxMessageBytes) = _
      split_ifs <;> omega
    unfold Fits
    rw [hmax, Nat.le_min]
  have hencode : ∀ plain wire, ((new maxMessageBytes).encode plain wire).1 = .ok ↔
      (new maxMessageBytes).Fits plain := by
    intro plain wire
    by_cases h : (new maxMessageBytes).Fits plain
    · simp [encode_of_fits h, h]
    · simp [encode_of_not_fits h, h]
  exact
    { encode_ok_iff := fun plain wire => (hencode plain wire).trans (hfits plain)
      decode_encode := by
        intro plain wire plain' hok
        have h := (hencode plain wire).mp hok
        rw [encode_of_fits h]
        exact decode_wireOf h
      decode_ok_iff := by
        intro plain wire plain' wire'
        rw [decode_eq_ok_iff, encode_eq_ok_iff]
      proper := by
        intro plain wire plain' wire' rest hrest hwire hok
        obtain ⟨h, hwire⟩ := encode_eq_ok_iff.mp hwire
        obtain ⟨plain₂, h₂, rfl⟩ := exists_of_decode_ok hok
        exact wireOf_ne_append h h₂ hrest hwire.symm
      extended := by
        intro plain wire plain' wire' rest hrest hwire hok
        obtain ⟨h, rfl⟩ := encode_eq_ok_iff.mp hwire
        obtain ⟨plain₂, h₂, hwire₂⟩ := exists_of_decode_ok hok
        exact wireOf_ne_append h₂ h hrest hwire₂.symm
      overLimit := by
        intro wire plain' hlong hok
        obtain ⟨plain, h, rfl⟩ := exists_of_decode_ok hok
        have hle := (hfits plain).mp h
        rw [length_wireOf] at hlong
        omega
      nullptr := by
        intro plain'
        show Result.errProtocol ≠ .ok
        decide
      encode_keeps := by
        intro plain wire hne
        rw [encode_of_not_fits (mt (hencode plain wire).mpr hne)]
      decode_keeps := decode_keeps_of_ne }

end LengthPrefixedCodec

end AsterNet
