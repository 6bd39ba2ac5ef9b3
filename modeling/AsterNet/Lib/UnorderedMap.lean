import Mathlib.Algebra.GroupWithZero.Nat
import Mathlib.Data.List.AList
import Mathlib.Tactic.Common

/-!
# Unordered maps

`std::unordered_map` as Mathlib's `AList`, with the two erasures `AList` lacks: by a predicate on the
key, and of the entry an iteration meets first.  The iteration order is unspecified, so `eraseFirst`
takes the choice as a number.
-/

namespace UnorderedMap

variable {κ β : Type} [DecidableEq κ]

/-- `for (it = m.begin(); …) if (p(it->first)) it = m.erase(it); else ++it;` -/
def eraseIf (p : κ → Bool) (m : AList fun _ : κ => β) : AList fun _ : κ => β :=
  ⟨m.entries.filter fun e => !p e.1,
    (List.filter_sublist.map Sigma.fst).nodup m.nodupKeys⟩

/-- `m.erase(m.begin())`; `i` is the choice of the iteration order. -/
def eraseFirst (i : ℕ) (m : AList fun _ : κ => β) : AList fun _ : κ => β :=
  match m.keys[i % m.keys.length]? with
  | some k => m.erase k
  | none => m

theorem lookup_eraseIf (p : κ → Bool) (m : AList fun _ : κ => β) (k : κ) :
    (eraseIf p m).lookup k = if p k then none else m.lookup k := by
  split_ifs with hp
  · rw [AList.lookup_eq_none]
    intro hk
    obtain ⟨e, he, rfl⟩ := List.mem_map.mp (AList.mem_keys.mp hk)
    have := (List.mem_filter.mp he).2
    simp [hp] at this
  · apply Option.ext
    intro b
    rw [← Option.mem_def, ← Option.mem_def, AList.mem_lookup_iff, AList.mem_lookup_iff]
    simp [eraseIf, hp]

theorem lookup_of_lookup_eraseIf {p : κ → Bool} {m : AList fun _ : κ => β} {k : κ} {b : β}
    (h : (eraseIf p m).lookup k = some b) : m.lookup k = some b := by
  rw [lookup_eraseIf] at h
  split_ifs at h
  exact h

theorem lookup_of_lookup_erase {m : AList fun _ : κ => β} {k k' : κ} {b : β}
    (h : (m.erase k').lookup k = some b) : m.lookup k = some b := by
  rcases eq_or_ne k k' with rfl | hne
  · rw [AList.lookup_erase] at h
    cases h
  · rwa [AList.lookup_erase_ne hne] at h

theorem length_erase_le (m : AList fun _ : κ => β) (k : κ) :
    (m.erase k).entries.length ≤ m.entries.length :=
  (List.kerase_sublist k m.entries).length_le

omit [DecidableEq κ] in
theorem length_keys (m : AList fun _ : κ => β) : m.keys.length = m.entries.length :=
  List.length_map _

theorem length_erase_of_mem {m : AList fun _ : κ => β} {k : κ} (h : k ∈ m) :
    (m.erase k).entries.length + 1 = m.entries.length := by
  have hpos : 0 < m.keys.length := List.length_pos_of_mem (AList.mem_keys.mp h)
  rw [← length_keys, ← length_keys, AList.keys_erase, List.length_erase_of_mem (AList.mem_keys.mp h)]
  omega

theorem length_insert_of_mem {m : AList fun _ : κ => β} {k : κ} {b : β} (h : k ∈ m) :
    (m.insert k b).entries.length = m.entries.length := by
  have hpos : 0 < m.keys.length := List.length_pos_of_mem (AList.mem_keys.mp h)
  rw [← length_keys, ← length_keys, AList.keys_insert, List.length_cons,
    List.length_erase_of_mem (AList.mem_keys.mp h)]
  omega

theorem length_insert_of_notMem {m : AList fun _ : κ => β} {k : κ} {b : β} (h : k ∉ m) :
    (m.insert k b).entries.length = m.entries.length + 1 := by
  rw [AList.entries_insert_of_notMem h]
  rfl

theorem length_insert_le (m : AList fun _ : κ => β) (k : κ) (b : β) :
    (m.insert k b).entries.length ≤ m.entries.length + 1 := by
  by_cases h : k ∈ m
  · rw [length_insert_of_mem h]
    omega
  · rw [length_insert_of_notMem h]

/-- Erasing a key keeps the other entries, in their order. -/
theorem entries_erase (m : AList fun _ : κ => β) (k : κ) :
    (m.erase k).entries = m.entries.filter fun e => e.1 != k := by
  obtain ⟨entries, hnodup⟩ := m
  show List.kerase k entries = _
  induction entries with
  | nil => rfl
  | cons e entries ih =>
    obtain ⟨hnotMem, hrest⟩ := List.nodupKeys_cons.mp hnodup
    rcases eq_or_ne k e.1 with rfl | hne
    · -- no other entry has the key
      have hall : ∀ e' ∈ entries, (e'.1 != e.1) = true := by
        intro e' he'
        simpa using ne_of_mem_of_not_mem (List.mem_map_of_mem (f := Sigma.fst) he') hnotMem
      rw [List.kerase_cons_eq rfl, List.filter_cons_of_neg (by simp), List.filter_eq_self.mpr hall]
    · rw [List.kerase_cons_ne hne, ih hrest, List.filter_cons_of_pos (by simpa using hne.symm)]

theorem lookup_of_lookup_eraseFirst {i : ℕ} {m : AList fun _ : κ => β} {k : κ} {b : β}
    (h : (eraseFirst i m).lookup k = some b) : m.lookup k = some b := by
  unfold eraseFirst at h
  split at h
  · exact lookup_of_lookup_erase h
  · exact h

theorem length_eraseFirst {i : ℕ} {m : AList fun _ : κ => β} (h : 0 < m.entries.length) :
    (eraseFirst i m).entries.length + 1 = m.entries.length := by
  have hlt : i % m.keys.length < m.keys.length := Nat.mod_lt _ (by rwa [length_keys])
  unfold eraseFirst
  rw [List.getElem?_eq_getElem hlt]
  exact length_erase_of_mem (AList.mem_keys.mpr (List.getElem_mem hlt))

/-- What an insertion leaves under a key: the value inserted, or what was there. -/
theorem lookup_insert_cases {m : AList fun _ : κ => β} {k k' : κ} {b b' : β}
    (h : (m.insert k' b').lookup k = some b) :
    (k = k' ∧ b = b') ∨ (k ≠ k' ∧ m.lookup k = some b) := by
  rcases eq_or_ne k k' with rfl | hne
  · rw [AList.lookup_insert] at h
    exact .inl ⟨rfl, (Option.some.inj h).symm⟩
  · rw [AList.lookup_insert_ne hne] at h
    exact .inr ⟨hne, h⟩

/-- A map without new values under other keys has no other new keys. -/
theorem eq_or_mem_of_lookup {m m' : AList fun _ : κ => β} {k k' : κ}
    (hold : k ≠ k' → ∀ b, m'.lookup k = some b → m.lookup k = some b) (hmem : k ∈ m') :
    k = k' ∨ k ∈ m := by
  rcases eq_or_ne k k' with rfl | hne
  · exact .inl rfl
  · obtain ⟨b, hb⟩ := Option.isSome_iff_exists.mp (AList.lookup_isSome.mpr hmem)
    exact .inr (AList.lookup_isSome.mp (Option.isSome_iff_exists.mpr ⟨b, hold hne b hb⟩))

/-! ### Counters -/

/-- `++m[k]` in a map of counters. -/
def increment (k : κ) (m : AList fun _ : κ => ℕ) : AList fun _ : κ => ℕ :=
  m.insert k ((m.lookup k).getD 0 + 1)

/-- The sum of all counters. -/
def total (m : AList fun _ : κ => ℕ) : ℕ := (m.entries.map fun e => e.2).sum

theorem total_insert_of_notMem {m : AList fun _ : κ => ℕ} {k : κ} (h : k ∉ m) (n : ℕ) :
    total (m.insert k n) = total m + n := by
  unfold total
  rw [AList.entries_insert_of_notMem h, List.map_cons, List.sum_cons, Nat.add_comm]

theorem total_increment (k : κ) (m : AList fun _ : κ => ℕ) : total (increment k m) = total m + 1 := by
  by_cases h : k ∈ m
  · -- the key's counter stands somewhere among the others
    obtain ⟨n, before, after, hnot, heq, herase⟩ :=
      List.exists_of_kerase (AList.mem_keys.mp h)
    have hlookup : m.lookup k = some n := by
      rw [← Option.mem_def, AList.mem_lookup_iff, heq]
      simp
    have hentries : (increment k m).entries = ⟨k, n + 1⟩ :: (before ++ after) := by
      unfold increment
      rw [AList.entries_insert, herase, hlookup]
      rfl
    unfold total
    rw [hentries, heq]
    simp only [List.map_cons, List.map_append, List.sum_cons, List.sum_append]
    omega
  · unfold increment
    rw [AList.lookup_eq_none.mpr h]
    exact total_insert_of_notMem h 1

theorem mem_increment {k k' : κ} {m : AList fun _ : κ => ℕ} : k' ∈ increment k m ↔ k' = k ∨ k' ∈ m :=
  AList.mem_insert m

end UnorderedMap
