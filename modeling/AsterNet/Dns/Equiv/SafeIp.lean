import AsterNet.Dns.SafeIp

/-!
# The address filter keeps exactly the numeric addresses that are not special

`special4` and `special6` are the special blocks, `embeddings` the IPv6 blocks that carry an IPv4
address.  `isSafeIpv4_iff` and `isSafeIpv6_iff` compare the byte cascades with them, and
`isSafeIp_isSome_iff` is the filter on text.
-/

namespace AsterNet.Dns

open Cidr

/-- The special IPv4 blocks. -/
def special4 : List (Block 4) :=
  [⟨![0, 0, 0, 0], 8⟩, ⟨![10, 0, 0, 0], 8⟩, ⟨![127, 0, 0, 0], 8⟩, ⟨![224, 0, 0, 0], 3⟩,
    ⟨![100, 64, 0, 0], 10⟩, ⟨![169, 254, 0, 0], 16⟩, ⟨![172, 16, 0, 0], 12⟩,
    ⟨![192, 168, 0, 0], 16⟩, ⟨![198, 18, 0, 0], 15⟩]

/-- An IPv4 address in a special block. -/
def IsSpecial4 (a : Addr 4) : Prop := ∃ b ∈ special4, b.Contains a

/-- The special IPv6 blocks: `::`, `::1`, `fc00::/7`, `fe80::/10`, `ff00::/8` and
`64:ff9b:1::/48`. -/
def special6 : List (Block 16) :=
  [⟨![0, 0, 0, 0, 0, 0, 0, 0, 0, 0, 0, 0, 0, 0, 0, 0], 128⟩,
    ⟨![0, 0, 0, 0, 0, 0, 0, 0, 0, 0, 0, 0, 0, 0, 0, 1], 128⟩,
    ⟨![0xfc, 0, 0, 0, 0, 0, 0, 0, 0, 0, 0, 0, 0, 0, 0, 0], 7⟩,
    ⟨![0xfe, 0x80, 0, 0, 0, 0, 0, 0, 0, 0, 0, 0, 0, 0, 0, 0], 10⟩,
    ⟨![0xff, 0, 0, 0, 0, 0, 0, 0, 0, 0, 0, 0, 0, 0, 0, 0], 8⟩,
    ⟨![0, 0x64, 0xff, 0x9b, 0, 1, 0, 0, 0, 0, 0, 0, 0, 0, 0, 0], 48⟩]

/-- The IPv6 blocks that embed an IPv4 address, with the offset of its first octet:
`::ffff:0:0/96`, `::/96`, `64:ff9b::/96`, `::ffff:0:0:0/96` and `2002::/16`. -/
def embeddings : List (Block 16 × Fin 13) :=
  [(⟨![0, 0, 0, 0, 0, 0, 0, 0, 0, 0, 0xff, 0xff, 0, 0, 0, 0], 96⟩, ⟨12, by decide⟩),
    (⟨![0, 0, 0, 0, 0, 0, 0, 0, 0, 0, 0, 0, 0, 0, 0, 0], 96⟩, ⟨12, by decide⟩),
    (⟨![0, 0x64, 0xff, 0x9b, 0, 0, 0, 0, 0, 0, 0, 0, 0, 0, 0, 0], 96⟩, ⟨12, by decide⟩),
    (⟨![0, 0, 0, 0, 0, 0, 0, 0, 0xff, 0xff, 0, 0, 0, 0, 0, 0], 96⟩, ⟨12, by decide⟩),
    (⟨![0x20, 0x02, 0, 0, 0, 0, 0, 0, 0, 0, 0, 0, 0, 0, 0, 0], 16⟩, ⟨2, by decide⟩)]

/-- An IPv6 address in a special block, or one that embeds a special IPv4 address. -/
def IsSpecial6 (a : Addr 16) : Prop :=
  (∃ b ∈ special6, b.Contains a) ∨
    ∃ e ∈ embeddings, IsSpecial4 (embedded4 a e.2) ∧ e.1.Contains a

instance : DecidablePred IsSpecial4 :=
  fun a => inferInstanceAs (Decidable (∃ b ∈ special4, b.Contains a))

instance : DecidablePred IsSpecial6 :=
  fun a => inferInstanceAs (Decidable ((∃ b ∈ special6, b.Contains a) ∨
    ∃ e ∈ embeddings, IsSpecial4 (embedded4 a e.2) ∧ e.1.Contains a))

/-! ### The blocks, octet by octet -/

/-- An octet as its value. -/
theorem octet_eq_iff (x : UInt8) (k : ℕ) (hk : k < 256) : x.toNat = k ↔ x = UInt8.ofNat k := by
  rw [← UInt8.toNat_inj, UInt8.toNat_ofNat_of_lt' hk]

theorem isSpecial4_iff (a : Addr 4) :
    IsSpecial4 a ↔ a 0 = 0 ∨ a 0 = 10 ∨ a 0 = 127 ∨ (a 0).toNat / 32 = 7 ∨
      (a 0 = 100 ∧ (a 1).toNat / 64 = 1) ∨ (a 0 = 169 ∧ a 1 = 254) ∨
      (a 0 = 172 ∧ (a 1).toNat / 16 = 1) ∨ (a 0 = 192 ∧ a 1 = 168) ∨
      (a 0 = 198 ∧ (a 1).toNat / 2 = 9) := by
  have hlt : ∀ i, (a i).toNat < 256 := fun i => (a i).toNat_lt
  simp only [IsSpecial4, special4, List.mem_cons, List.not_mem_nil, or_false, exists_eq_or_imp,
    exists_eq_left]
  simp (disch := decide) only [Block.contains_iff, Fin.forall_fin_succ, Block.fixed]
  simp (disch := decide) [hlt, octet_eq_iff]

theorem isSpecial6_iff (a : Addr 16) :
    IsSpecial6 a ↔
      (∀ i, a i = 0) ∨ (∀ i, a i = ![0, 0, 0, 0, 0, 0, 0, 0, 0, 0, 0, 0, 0, 0, 0, 1] i) ∨
      (a 0).toNat / 2 = 126 ∨ (a 0 = 0xfe ∧ (a 1).toNat / 64 = 2) ∨ a 0 = 0xff ∨
      (a 0 = 0 ∧ a 1 = 0x64 ∧ a 2 = 0xff ∧ a 3 = 0x9b ∧ a 4 = 0 ∧ a 5 = 1) ∨
      (IsSpecial4 (embedded4 a 12) ∧ a 0 = 0 ∧ a 1 = 0 ∧ a 2 = 0 ∧ a 3 = 0 ∧ a 4 = 0 ∧ a 5 = 0 ∧
        a 6 = 0 ∧ a 7 = 0 ∧ a 8 = 0 ∧ a 9 = 0 ∧ a 10 = 0xff ∧ a 11 = 0xff) ∨
      (IsSpecial4 (embedded4 a 12) ∧ a 0 = 0 ∧ a 1 = 0 ∧ a 2 = 0 ∧ a 3 = 0 ∧ a 4 = 0 ∧ a 5 = 0 ∧
        a 6 = 0 ∧ a 7 = 0 ∧ a 8 = 0 ∧ a 9 = 0 ∧ a 10 = 0 ∧ a 11 = 0) ∨
      (IsSpecial4 (embedded4 a 12) ∧ a 0 = 0 ∧ a 1 = 0x64 ∧ a 2 = 0xff ∧ a 3 = 0x9b ∧ a 4 = 0 ∧
        a 5 = 0 ∧ a 6 = 0 ∧ a 7 = 0 ∧ a 8 = 0 ∧ a 9 = 0 ∧ a 10 = 0 ∧ a 11 = 0) ∨
      (IsSpecial4 (embedded4 a 12) ∧ a 0 = 0 ∧ a 1 = 0 ∧ a 2 = 0 ∧ a 3 = 0 ∧ a 4 = 0 ∧ a 5 = 0 ∧
        a 6 = 0 ∧ a 7 = 0 ∧ a 8 = 0xff ∧ a 9 = 0xff ∧ a 10 = 0 ∧ a 11 = 0) ∨
      (IsSpecial4 (embedded4 a 2) ∧ a 0 = 0x20 ∧ a 1 = 0x02) := by
  have hlt : ∀ i, (a i).toNat < 256 := fun i => (a i).toNat_lt
  simp only [IsSpecial6, special6, embeddings, List.mem_cons, List.not_mem_nil, or_false,
    exists_eq_or_imp, exists_eq_left]
  simp (disch := decide) only [Block.contains_iff, Fin.forall_fin_succ, Block.fixed]
  simp (disch := decide) [hlt, octet_eq_iff, or_assoc]

/-! ### The cascades -/

/-- The comparisons of the IPv4 filter, as quotients. -/
theorem range_iff : ∀ c : UInt8, (c < 224 ↔ ¬ c.toNat / 32 = 7) ∧
    (64 ≤ c ∧ c ≤ 127 ↔ c.toNat / 64 = 1) ∧ (16 ≤ c ∧ c ≤ 31 ↔ c.toNat / 16 = 1) ∧
    (c = 18 ∨ c = 19 ↔ c.toNat / 2 = 9) := by
  decide +kernel

theorem isSafeIpv4_iff (a : Addr 4) : isSafeIpv4 a false = true ↔ ¬ IsSpecial4 a := by
  obtain ⟨h224, -⟩ := range_iff (a 0)
  obtain ⟨-, h100, h172, h198⟩ := range_iff (a 1)
  rw [isSpecial4_iff, ← h100, ← h172, ← h198]
  simp [isSafeIpv4, h224, and_assoc, or_assoc, imp_iff_not_or]

theorem checkEmbeddedIpv4_iff (a : Addr 16) (offset : Fin 13) :
    checkEmbeddedIpv4 a offset false = true ↔ ¬ IsSpecial4 (embedded4 a offset) :=
  isSafeIpv4_iff _

/-- The masked comparisons of the unique-local and link-local tests, as quotients. -/
theorem masked_eq_iff : ∀ c : UInt8,
    ((c &&& 0xfe == 0xfc) = true ↔ c.toNat / 2 = 126) ∧
      ((c &&& 0xc0 == 0x80) = true ↔ c.toNat / 64 = 2) := by
  decide +kernel

/-- The two whole addresses among the special blocks, `::` and `::1`. -/
theorem unspecified_or_loopback_iff (a : Addr 16) :
    ((∀ i, a i = 0) ∨ ∀ i, a i = ![0, 0, 0, 0, 0, 0, 0, 0, 0, 0, 0, 0, 0, 0, 0, 1] i) ↔
      a 0 = 0 ∧ a 1 = 0 ∧ a 2 = 0 ∧ a 3 = 0 ∧ a 4 = 0 ∧ a 5 = 0 ∧ a 6 = 0 ∧ a 7 = 0 ∧ a 8 = 0 ∧
        a 9 = 0 ∧ a 10 = 0 ∧ a 11 = 0 ∧ a 12 = 0 ∧ a 13 = 0 ∧ a 14 = 0 ∧ (a 15 = 0 ∨ a 15 = 1) := by
  simp [Fin.forall_fin_succ, ← and_or_left]

/-- **The IPv6 cascade.**  The branches are pairwise exclusive, so their order does not matter: the
first test that fires decides alone. -/
theorem isSafeIpv6_iff (a : Addr 16) : isSafeIpv6 a false = true ↔ ¬ IsSpecial6 a := by
  -- the masks of the first two bytes, as prefixes
  obtain ⟨hunique, -⟩ := masked_eq_iff (a 0)
  obtain ⟨-, hlink⟩ := masked_eq_iff (a 1)
  rw [isSpecial6_iff, ← or_assoc, unspecified_or_loopback_iff]
  unfold isSafeIpv6 in6IsAddrV4Mapped
  simp only [hunique, hlink, Bool.and_eq_true, Bool.or_eq_true, beq_iff_eq, decide_eq_true_eq,
    unspecified_or_loopback_iff, Bool.not_eq_true', Bool.and_eq_false_iff, Bool.or_eq_false_iff,
    beq_eq_false_iff_ne, Bool.not_false, Bool.false_eq_true, ↓reduceIte, and_assoc, true_and]
  -- one case for each test of the cascade
  split_ifs with h1 h2 h3 h4 h5 h6 h7 h8
  · rw [checkEmbeddedIpv4_iff]
    simp [h1]
  · rw [checkEmbeddedIpv4_iff]
    have hwhole : ¬ (a 12 = 0 ∧ a 13 = 0 ∧ a 14 = 0 ∧ (a 15 = 0 ∨ a 15 = 1)) := by
      rintro ⟨h12, h13, h14, h15⟩
      simp only [h12, h13, h14, ne_eq, not_true_eq_false, false_or] at h2
      obtain ⟨-, -, -, -, -, -, -, -, -, -, -, -, hne0, hne1⟩ := h2
      exact h15.elim hne0 hne1
    simp [h2, hwhole]
  · rw [checkEmbeddedIpv4_iff]
    simp [h3]
  · simp [h4]
  · rw [checkEmbeddedIpv4_iff]
    simp [h5]
  · rw [checkEmbeddedIpv4_iff]
    simp [h6]
  · exact iff_of_false not_false (not_not.mpr (.inl h7))
  · refine iff_of_false not_false (not_not.mpr (.inr ?_))
    rw [or_assoc] at h8
    rcases h8 with h | h | h
    · exact .inl h
    · exact .inr (.inl h)
    · exact .inr (.inr (.inl h))
  -- no test fires: then none of the prefixes can match
  · refine iff_of_true rfl ?_
    rw [not_or, not_or] at h8
    rintro (h | h | h | h | h | ⟨-, h⟩ | ⟨-, h⟩ | ⟨-, h⟩ | ⟨-, h⟩ | ⟨-, h⟩)
    · exact h7 h
    · exact h8.1.1 h
    · exact h8.1.2 h
    · exact h8.2 h
    · exact h4 h
    · exact h1 h
    · -- `::/96` passed the second test only as `::` or `::1`
      simp only [h, true_and, ne_eq, not_or, not_and_or, not_not] at h2
      simp only [h, true_and] at h7
      exact h7 ⟨h2.1.1.1, h2.1.1.2, h2.1.2, h2.2⟩
    · exact h3 h
    · exact h5 h
    · exact h6 h

/-! ### The filter on text -/

section Text

variable (inet : Inet)

/-- A text `inet_pton` accepts as an address of either family. -/
def IsNumeric (value : Bytes) : Prop :=
  (inet.pton4 (ByteString.cStr value)).isSome ∨ (inet.pton6 (ByteString.cStr value)).isSome

/-- The address a text denotes is special. -/
def IsSpecial (value : Bytes) : Prop :=
  match inet.pton4 (ByteString.cStr value) with
  | some v4 => IsSpecial4 v4
  | none => ∃ v6 ∈ inet.pton6 (ByteString.cStr value), IsSpecial6 v6

/-- A numeric address that is not special. -/
def Allowed (value : Bytes) : Prop := IsNumeric inet value ∧ ¬ IsSpecial inet value

theorem isNumericIp_isSome_iff (value : Bytes) :
    (isNumericIp inet value).isSome ↔ IsNumeric inet value := by
  unfold isNumericIp IsNumeric
  split_ifs with h4 h6
  · simp [h4]
  · simp [h6]
  · simp [h4, h6]

/-- **The filter**: `is_safe_ip` without private addresses accepts exactly the numeric addresses
that are not special. -/
theorem isSafeIp_isSome_iff (value : Bytes) :
    (isSafeIp inet value false).isSome ↔ Allowed inet value := by
  unfold isSafeIp Allowed IsNumeric IsSpecial
  cases h4 : inet.pton4 (ByteString.cStr value) with
  | some v4 =>
    have := isSafeIpv4_iff v4
    by_cases hs : isSafeIpv4 v4 false <;> simp_all
  | none =>
    cases h6 : inet.pton6 (ByteString.cStr value) with
    | some v6 =>
      have := isSafeIpv6_iff v6
      by_cases hs : isSafeIpv6 v6 false <;> simp_all
    | none => simp

end Text

end AsterNet.Dns
