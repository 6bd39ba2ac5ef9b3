import Mathlib.Data.Nat.Bitwise
import Mathlib.Data.Fin.VecNotation
import Mathlib.Tactic.Common

/-!
# Address blocks

An address of `n` octets and the CIDR block `net/len`: the addresses whose first `len` bits are those
of `net`.  `Block.contains_iff` reads a block octet by octet.
-/

namespace Cidr

variable {n : ℕ}

/-- An address in network byte order. -/
abbrev Addr (n : ℕ) := Fin n → UInt8

/-- Bit `i` of an address, counted from the most significant one. -/
def bit (a : Addr n) (i : ℕ) : Bool :=
  if h : i / 8 < n then (a ⟨i / 8, h⟩).toNat.testBit (7 - i % 8) else false

/-- The block `net/len`. -/
structure Block (n : ℕ) where
  net : Addr n
  len : ℕ

namespace Block

/-- The first `len` bits agree with the block's. -/
def Contains (b : Block n) (a : Addr n) : Prop := ∀ i < b.len, bit a i = bit b.net i

instance (b : Block n) (a : Addr n) : Decidable (b.Contains a) :=
  inferInstanceAs (Decidable (∀ i < b.len, _))

/-- How many leading bits of octet `j` the block fixes. -/
def fixed (b : Block n) (j : ℕ) : ℕ := min 8 (b.len - 8 * j)

end Block

/-- Two octets agree in their first `r` bits exactly when their quotients by `2 ^ (8 - r)` do. -/
theorem leading_bits_eq_iff (x y : UInt8) {r : ℕ} (hr : r ≤ 8) :
    (∀ i < r, x.toNat.testBit (7 - i) = y.toNat.testBit (7 - i)) ↔
      x.toNat / 2 ^ (8 - r) = y.toNat / 2 ^ (8 - r) := by
  constructor
  · intro h
    apply Nat.eq_of_testBit_eq
    intro i
    rw [Nat.testBit_div_two_pow, Nat.testBit_div_two_pow]
    by_cases hi : i < r
    · have := h (r - 1 - i) (by omega)
      rwa [show 7 - (r - 1 - i) = i + (8 - r) by omega] at this
    · -- above the leading bits there is nothing left of a byte
      have hbig : ∀ z : UInt8, z.toNat.testBit (i + (8 - r)) = false := by
        intro z
        apply Nat.testBit_eq_false_of_lt
        have h256 : z.toNat < 2 ^ 8 := z.toNat_lt
        exact h256.trans_le (Nat.pow_le_pow_right (by decide) (by omega))
      rw [hbig, hbig]
  · intro h i hi
    have := congrArg (Nat.testBit · (r - 1 - i)) h
    simp only [Nat.testBit_div_two_pow] at this
    rwa [show r - 1 - i + (8 - r) = 7 - i by omega] at this

/-- **A block, octet by octet.** -/
theorem Block.contains_iff (b : Block n) (hlen : b.len ≤ 8 * n) (a : Addr n) :
    b.Contains a ↔ ∀ j : Fin n,
      (a j).toNat / 2 ^ (8 - b.fixed j) = (b.net j).toNat / 2 ^ (8 - b.fixed j) := by
  have hoctet : ∀ j : Fin n,
      ((a j).toNat / 2 ^ (8 - b.fixed j) = (b.net j).toNat / 2 ^ (8 - b.fixed j) ↔
        ∀ i < b.fixed j, (a j).toNat.testBit (7 - i) = (b.net j).toNat.testBit (7 - i)) :=
    fun j => (leading_bits_eq_iff _ _ (Nat.min_le_left ..)).symm
  constructor
  · intro h j
    rw [hoctet]
    intro i hi
    have hi8 : i < 8 := hi.trans_le (Nat.min_le_left ..)
    have hil : i < b.len - 8 * j := hi.trans_le (Nat.min_le_right ..)
    have hb := h (8 * j + i) (by omega)
    -- bit `i` of octet `j` is bit `8 * j + i` of the address
    have hdiv : (8 * (j : ℕ) + i) / 8 = j := by omega
    have hmod : (8 * (j : ℕ) + i) % 8 = i := by omega
    simpa [bit, hdiv, hmod] using hb
  · intro h i hi
    have hj : i / 8 < n := by omega
    have hb := (hoctet ⟨i / 8, hj⟩).mp (h _) (i % 8)
      (lt_min (Nat.mod_lt _ (by decide)) (by simp only; omega))
    simp only [bit, hj, ↓reduceDIte]
    exact hb

end Cidr
