import Mathlib.Data.Set.Card
import Mathlib.Logic.Function.Basic

/-!
# How many places are in a state

The number of the places of an indexed state at which a predicate holds, and what updating one place does
to it.  There may be any number of places; `Counted` says that the number is finite, and which it is.
-/

namespace Population

variable {ι σ : Type} {P : σ → Prop} {f : ι → σ} {t : ι} {v : σ} {n : ℕ}

/-- The number of places where `P` holds. -/
noncomputable def population (P : σ → Prop) (f : ι → σ) : ℕ∞ := {t | P (f t)}.encard

/-- `P` holds at `n` places. -/
def Counted (P : σ → Prop) (f : ι → σ) (n : ℕ) : Prop := population P f = n

theorem counted_zero (h : ∀ t, ¬ P (f t)) : Counted P f 0 := by
  have hempty : {t | P (f t)} = ∅ := Set.eq_empty_of_forall_notMem h
  rw [Counted, population, hempty, Set.encard_empty]
  rfl

variable [DecidableEq ι]

/-- A place that is as before. -/
theorem Counted.same (h : Counted P f n) (hsame : P v ↔ P (f t)) :
    Counted P (Function.update f t v) n := by
  have hset : {u | P (Function.update f t v u)} = {u | P (f u)} := by
    ext u
    rcases eq_or_ne u t with rfl | hne
    · simpa using hsame
    · simp [hne]
  rw [Counted, population, hset]
  exact h

/-- A place that enters. -/
theorem Counted.enter (h : Counted P f n) (hold : ¬ P (f t)) (hnew : P v) :
    Counted P (Function.update f t v) (n + 1) := by
  have hset : {u | P (Function.update f t v u)} = insert t {u | P (f u)} := by
    ext u
    rcases eq_or_ne u t with rfl | hne
    · simpa using hnew
    · simp [hne]
  have hnotMem : t ∉ {u | P (f u)} := hold
  rw [Counted, population, hset, Set.encard_insert_of_notMem hnotMem]
  exact congrArg (· + 1) h

/-- A place that leaves. -/
theorem Counted.leave (h : Counted P f n) (hold : P (f t)) (hnew : ¬ P v) :
    ∃ k, n = k + 1 ∧ Counted P (Function.update f t v) k := by
  have hset : insert t {u | P (Function.update f t v u)} = {u | P (f u)} := by
    ext u
    rcases eq_or_ne u t with rfl | hne
    · simpa using hold
    · simp [hne]
  have hnotMem : t ∉ {u | P (Function.update f t v u)} := by simpa using hnew
  have hcard : population P (Function.update f t v) + 1 = n := by
    rw [population, ← Set.encard_insert_of_notMem hnotMem, hset]
    exact h
  have hfinite : population P (Function.update f t v) ≠ ⊤ := by
    intro htop
    rw [htop, top_add] at hcard
    exact ENat.top_ne_natCast n hcard
  obtain ⟨k, hk⟩ := ENat.ne_top_iff_exists.mp hfinite
  refine ⟨k, ?_, hk.symm⟩
  rw [← hk] at hcard
  exact_mod_cast hcard.symm

end Population
