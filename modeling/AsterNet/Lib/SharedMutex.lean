import Mathlib.Data.Finset.Card
import Mathlib.Logic.Function.Basic

/-!
# A lock for readers and writers

`SharedMutex` is the state of a lock that any number of threads hold shared or one thread holds
exclusively; that these exclude each other is a field.  A lock operation that would have to wait is
`none`.

`Tied l mode` says that the lock agrees with what the threads know of themselves.  Each operation keeps
it, with the mode of its thread brought up to date, and beside a thread that holds a tied lock
exclusively no other one holds it (`Tied.free_of_exclusive`).
-/

/-- How a thread holds the lock. -/
inductive LockMode
  | free
  | shared
  | exclusive
  deriving DecidableEq, Repr

/-- A lock for readers and writers. -/
structure SharedMutex (ι : Type) where
  readers : Finset ι := ∅
  writer : Option ι := none
  exclusive : writer ≠ none → readers = ∅ := by simp

namespace SharedMutex

theorem exclusive_none {ι : Type} (h : (none : Option ι) ≠ none) : (∅ : Finset ι) = ∅ :=
  absurd rfl h

variable {ι : Type} [DecidableEq ι]

/-- `lock_shared`. -/
def lockShared (l : SharedMutex ι) (t : ι) : Option (SharedMutex ι) :=
  if l.writer = none then some { readers := insert t l.readers } else none

/-- `unlock_shared`. -/
def unlockShared (l : SharedMutex ι) (t : ι) : SharedMutex ι where
  readers := l.readers.erase t
  writer := l.writer
  exclusive hwriter := by simp [l.exclusive hwriter]

omit [DecidableEq ι] in
/-- `lock`. -/
def lock (l : SharedMutex ι) (t : ι) : Option (SharedMutex ι) :=
  if l.writer.isNone ∧ l.readers.card = 0 then
    some { writer := some t, exclusive := fun _ => rfl }
  else none

/-- `unlock`. -/
def unlock (l : SharedMutex ι) : SharedMutex ι where
  readers := l.readers

/-- The lock is held as the threads know. -/
structure Tied (l : SharedMutex ι) (mode : ι → LockMode) : Prop where
  reader_iff : ∀ t, t ∈ l.readers ↔ mode t = .shared
  writer_iff : ∀ t, l.writer = some t ↔ mode t = .exclusive

namespace Tied

variable {l l' : SharedMutex ι} {mode : ι → LockMode} {t u : ι}

omit [DecidableEq ι] in
/-- One thread holds the lock exclusively. -/
theorem eq_of_exclusive (htied : l.Tied mode) (ht : mode t = .exclusive) (hu : mode u = .exclusive) :
    t = u := by
  have hwriter := (htied.writer_iff t).mpr ht
  rw [(htied.writer_iff u).mpr hu] at hwriter
  exact (Option.some.inj hwriter).symm

omit [DecidableEq ι] in
/-- And no thread holds it shared meanwhile. -/
theorem not_shared_of_exclusive (htied : l.Tied mode) (ht : mode t = .exclusive) : mode u ≠ .shared := by
  intro hu
  have hwriter := (htied.writer_iff t).mpr ht
  have hreader := (htied.reader_iff u).mpr hu
  rw [l.exclusive (by simp [hwriter])] at hreader
  exact absurd hreader (Finset.notMem_empty u)

omit [DecidableEq ι] in
/-- The others do not hold it at all. -/
theorem free_of_exclusive (htied : l.Tied mode) (ht : mode t = .exclusive) (hne : u ≠ t) :
    mode u = .free := by
  cases hu : mode u with
  | free => rfl
  | shared => exact absurd hu (htied.not_shared_of_exclusive ht)
  | exclusive => exact absurd (htied.eq_of_exclusive hu ht) hne

theorem lockShared (htied : l.Tied mode) (hlock : l.lockShared t = some l') :
    l'.Tied (Function.update mode t .shared) ∧ ∀ u, mode u ≠ .exclusive := by
  unfold SharedMutex.lockShared at hlock
  split_ifs at hlock with hnone
  obtain rfl := Option.some.inj hlock
  have hfree : ∀ u, mode u ≠ .exclusive := by
    intro u hu
    rw [(htied.writer_iff u).mpr hu] at hnone
    cases hnone
  refine ⟨⟨fun u => ?_, fun u => ?_⟩, hfree⟩
  · rcases eq_or_ne u t with rfl | hne
    · simp
    · rw [Finset.mem_insert, Function.update_of_ne hne, ← htied.reader_iff]
      simp [hne]
  · rcases eq_or_ne u t with rfl | hne
    · simp
    · rw [Function.update_of_ne hne]
      exact iff_of_false (by simp) (hfree u)

theorem unlockShared (htied : l.Tied mode) (ht : mode t = .shared) :
    (l.unlockShared t).Tied (Function.update mode t .free) := by
  refine ⟨fun u => ?_, fun u => ?_⟩
  · rcases eq_or_ne u t with rfl | hne
    · simp [SharedMutex.unlockShared]
    · rw [Function.update_of_ne hne, ← htied.reader_iff, SharedMutex.unlockShared, Finset.mem_erase]
      simp [hne]
  · show l.writer = some u ↔ _
    rcases eq_or_ne u t with rfl | hne
    · rw [htied.writer_iff, ht, Function.update_self]
      simp
    · rw [Function.update_of_ne hne]
      exact htied.writer_iff u

/-- Who gets the lock exclusively finds nobody. -/
theorem lock (htied : l.Tied mode) (hlock : l.lock t = some l') :
    l'.Tied (Function.update mode t .exclusive) ∧ ∀ u, mode u = .free := by
  unfold SharedMutex.lock at hlock
  split_ifs at hlock with hnobody
  obtain rfl := Option.some.inj hlock
  rw [Option.isNone_iff_eq_none, Finset.card_eq_zero] at hnobody
  have hfree : ∀ u, mode u = .free := by
    intro u
    cases hu : mode u with
    | free => rfl
    | shared =>
      have hreader := (htied.reader_iff u).mpr hu
      rw [hnobody.2] at hreader
      exact absurd hreader (Finset.notMem_empty u)
    | exclusive =>
      have hwriter := (htied.writer_iff u).mpr hu
      rw [hnobody.1] at hwriter
      cases hwriter
  refine ⟨⟨fun u => ?_, fun u => ?_⟩, hfree⟩
  · rcases eq_or_ne u t with rfl | hne
    · simp
    · rw [Function.update_of_ne hne, hfree u]
      simp
  · rcases eq_or_ne u t with rfl | hne
    · simp
    · rw [Function.update_of_ne hne, hfree u]
      simp [hne.symm]

theorem unlock (htied : l.Tied mode) (ht : mode t = .exclusive) :
    l.unlock.Tied (Function.update mode t .free) := by
  refine ⟨fun u => ?_, fun u => ?_⟩
  · show u ∈ l.readers ↔ _
    rcases eq_or_ne u t with rfl | hne
    · rw [htied.reader_iff, ht, Function.update_self]
      simp
    · rw [Function.update_of_ne hne]
      exact htied.reader_iff u
  · show none = some u ↔ _
    rcases eq_or_ne u t with rfl | hne
    · simp
    · rw [Function.update_of_ne hne]
      refine iff_of_false (by simp) fun hu => hne ?_
      exact htied.eq_of_exclusive hu ht

end Tied

end SharedMutex
