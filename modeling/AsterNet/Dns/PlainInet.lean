import AsterNet.Dns.SafeIp
import AsterNet.Lib.Numeral
import Mathlib.Data.List.OfFn

/-!
# Addresses as plain text

`Inet.plain` is `inet_pton` and `inet_ntop` without the compressed and mixed forms of IPv6: four
decimal octets, or eight groups of hexadecimal digits without leading zeros.  It shows that the laws
of `Inet` can be met, and is what concrete runs are evaluated with.
-/

namespace AsterNet

open Cidr ByteString

/-- Numerals with a separator between them. -/
def writeGroups (base : ℕ) (sep : UInt8) (groups : List ℕ) : Bytes :=
  [sep].intercalate (groups.map (numeral base))

/-- The reader for exactly `count` numerals below `bound`. -/
def readGroups (base bound count : ℕ) (sep : UInt8) (s : Bytes) : Option (List ℕ) :=
  let parts := s.splitOn sep
  if parts.length = count ∧
      ∀ part ∈ parts, part = numeral base (digitsValue base part) ∧ digitsValue base part < bound then
    some (parts.map (digitsValue base))
  else none

theorem mem_writeGroups {base : ℕ} (hbase : base = 10 ∨ base = 16) {sep c : UInt8} {groups : List ℕ}
    (h : c ∈ writeGroups base sep groups) : c = sep ∨ (digitVal base c).isSome := by
  unfold writeGroups at h
  induction groups with
  | nil => simp at h
  | cons g groups ih =>
    cases groups with
    | nil =>
      rw [List.map_cons, List.map_nil, List.intercalate_singleton] at h
      exact .inr (numeral_allDigits hbase g c h)
    | cons g' groups =>
      rw [List.map_cons, List.map_cons, List.intercalate_cons_cons, List.append_assoc,
        List.mem_append, List.mem_append, ← List.map_cons] at h
      rcases h with h | h | h
      · exact .inr (numeral_allDigits hbase g c h)
      · exact .inl (List.mem_singleton.mp h)
      · exact ih h

/-- Reading what was written. -/
theorem readGroups_writeGroups {base bound count : ℕ} (hbase : base = 10 ∨ base = 16) {sep : UInt8}
    (hsep : digitVal base sep = none) {groups : List ℕ} (hcount : groups.length = count)
    (hne : groups ≠ []) (hlt : ∀ g ∈ groups, g < bound) :
    readGroups base bound count sep (writeGroups base sep groups) = some groups := by
  have hsplit : (writeGroups base sep groups).splitOn sep = groups.map (numeral base) := by
    refine List.splitOn_intercalate sep ?_ (by simpa using hne)
    intro part hpart hmem
    obtain ⟨g, -, rfl⟩ := List.mem_map.mp hpart
    have := numeral_allDigits hbase g sep hmem
    simp [hsep] at this
  unfold readGroups
  dsimp only
  rw [hsplit, if_pos]
  · rw [List.map_map, List.map_congr_left (g := id), List.map_id]
    intro g _
    exact digitsValue_numeral hbase g
  · refine ⟨by rwa [List.length_map], ?_⟩
    intro part hpart
    obtain ⟨g, hg, rfl⟩ := List.mem_map.mp hpart
    rw [digitsValue_numeral hbase]
    exact ⟨rfl, hlt g hg⟩

/-- The octet a list holds at `i`. -/
def octetAt (groups : List ℕ) (i : ℕ) : UInt8 := UInt8.ofNat (groups.getD i 0)

namespace Inet

/-- The dotted decimal text. -/
def dotted (a : Addr 4) : Bytes := writeGroups 10 46 (List.ofFn fun i => (a i).toNat)

/-- The eight groups of an IPv6 address. -/
def groups6 (a : Addr 16) : List ℕ :=
  List.ofFn fun i : Fin 8 => 256 * (a ⟨2 * i, by omega⟩).toNat + (a ⟨2 * i + 1, by omega⟩).toNat

/-- The octets eight groups stand for. -/
def ofGroups6 (groups : List ℕ) : Addr 16 := fun i =>
  if i.val % 2 = 0 then UInt8.ofNat (groups.getD (i / 2) 0 / 256)
  else UInt8.ofNat (groups.getD (i / 2) 0 % 256)

theorem ofGroups6_groups6 (a : Addr 16) : ofGroups6 (groups6 a) = a := by
  funext i
  have hdiv : i.val / 2 < 8 := by omega
  have hget : (groups6 a).getD (i.val / 2) 0 =
      256 * (a ⟨2 * (i / 2), by omega⟩).toNat + (a ⟨2 * (i / 2) + 1, by omega⟩).toNat := by
    rw [groups6, List.getD_eq_getElem?_getD, List.getElem?_ofFn, dif_pos hdiv]
    rfl
  have hlt := (a ⟨2 * (i.val / 2) + 1, by omega⟩).toNat_lt
  unfold ofGroups6
  rw [hget]
  split_ifs with hpar
  · have hval : (⟨2 * (i.val / 2), by omega⟩ : Fin 16) = i := Fin.ext (by dsimp only; omega)
    rw [show (256 * (a ⟨2 * (i.val / 2), by omega⟩).toNat + (a ⟨2 * (i.val / 2) + 1, by omega⟩).toNat)
      / 256 = (a ⟨2 * (i.val / 2), by omega⟩).toNat by omega, UInt8.ofNat_toNat, hval]
  · have hval : (⟨2 * (i.val / 2) + 1, by omega⟩ : Fin 16) = i := Fin.ext (by dsimp only; omega)
    rw [show (256 * (a ⟨2 * (i.val / 2), by omega⟩).toNat + (a ⟨2 * (i.val / 2) + 1, by omega⟩).toNat)
      % 256 = (a ⟨2 * (i.val / 2) + 1, by omega⟩).toNat by omega, UInt8.ofNat_toNat, hval]

theorem length_groups6 (a : Addr 16) : (groups6 a).length = 8 := List.length_ofFn

theorem groups6_lt (a : Addr 16) : ∀ g ∈ groups6 a, g < 65536 := by
  intro g hg
  obtain ⟨i, rfl⟩ := List.mem_ofFn.mp hg
  have h0 := (a ⟨2 * i, by omega⟩).toNat_lt
  have h1 := (a ⟨2 * i + 1, by omega⟩).toNat_lt
  omega

/-- `inet_pton` and `inet_ntop` on plain text. -/
def plain : Inet where
  pton4 s := (readGroups 10 256 4 46 s).map fun groups i => octetAt groups i
  pton6 s := (readGroups 16 65536 8 58 s).map ofGroups6
  ntop4 := dotted
  ntop6 a := writeGroups 16 58 (groups6 a)
  pton4_ntop4 a := by
    rw [dotted, readGroups_writeGroups (.inl rfl) (by decide) (List.length_ofFn ..) (by simp)]
    · simp only [Option.map_some, Option.some.injEq]
      funext i
      rw [octetAt, List.getD_eq_getElem?_getD, List.getElem?_ofFn, dif_pos i.isLt]
      exact UInt8.ofNat_toNat
    · intro g hg
      obtain ⟨i, rfl⟩ := List.mem_ofFn.mp hg
      exact (a i).toNat_lt
  pton6_ntop6 a := by
    rw [readGroups_writeGroups (.inr rfl) (by decide) (length_groups6 a) (by simp [groups6])
      (groups6_lt a), Option.map_some, ofGroups6_groups6]
  pton4_ntop6 a := by
    have hdot : (46 : UInt8) ∉ writeGroups 16 58 (groups6 a) := by
      intro h
      rcases mem_writeGroups (.inr rfl) h with h | h <;> revert h <;> decide
    rw [readGroups, List.splitOn_eq_singleton hdot]
    rfl
  nul_notMem_ntop4 a h := by
    rcases mem_writeGroups (.inl rfl) h with h | h <;> revert h <;> decide
  nul_notMem_ntop6 a h := by
    rcases mem_writeGroups (.inr rfl) h with h | h <;> revert h <;> decide

end Inet

end AsterNet
