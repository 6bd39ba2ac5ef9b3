import AsterNet.Lib.Transition
import Mathlib.Algebra.BigOperators.Group.Finset.Basic
import Mathlib.Algebra.Order.BigOperators.Group.Finset

/-!
# Runs that come to an end

A measure that every step of some kind lowers bounds the runs of such steps (`Run.length_add_le`).  When a
state that is not done can always make a run that lowers the measure, every state can be brought to one that
is done (`exists_run_of_progress`).  `sum_update_lt` is for a measure that is summed over the parties.
-/

namespace Transition

variable {σ ι : Type} {step : σ → ι → σ → Prop} {I done : σ → Prop} {P : ι → Prop} {s t : σ} {ls : List ι}

/-- **Termination**: a run whose steps lower the measure has at most as many steps as it. -/
theorem Run.length_add_le (μ : σ → ℕ) (hlower : ∀ s l t, I s → P l → step s l t → I t ∧ μ t < μ s)
    (h : Run step s ls t) (hP : ∀ l ∈ ls, P l) (hs : I s) : I t ∧ ls.length + μ t ≤ μ s := by
  induction h with
  | nil => exact ⟨hs, by simp⟩
  | @snoc t u ls l _ hst ih =>
    obtain ⟨ht, hle⟩ := ih fun l hl => hP l (List.mem_append_left _ hl)
    obtain ⟨hu, hlt⟩ := hlower _ _ _ ht (hP l (by simp)) hst
    refine ⟨hu, ?_⟩
    rw [List.length_append, List.length_singleton]
    omega

/-- **Completion**: where progress can always be made, the end can be reached. -/
theorem exists_run_of_progress (μ : σ → ℕ)
    (hprogress : ∀ s, I s → ¬ done s → ∃ ls t, Run step s ls t ∧ (∀ l ∈ ls, P l) ∧ I t ∧ μ t < μ s)
    (hs : I s) : ∃ ls t, Run step s ls t ∧ (∀ l ∈ ls, P l) ∧ I t ∧ done t := by
  induction hμ : μ s using Nat.strongRecOn generalizing s with
  | ind n ih =>
    subst hμ
    by_cases hdone : done s
    · exact ⟨[], s, .nil, by simp, hs, hdone⟩
    · obtain ⟨ls, t, hrun, hP, ht, hlt⟩ := hprogress s hs hdone
      obtain ⟨ls', u, hrun', hP', hu, hend⟩ := ih (μ t) hlt ht rfl
      refine ⟨ls ++ ls', u, hrun.append hrun', fun l hl => ?_, hu, hend⟩
      rcases List.mem_append.mp hl with hl | hl
      · exact hP l hl
      · exact hP' l hl

/-- One party has less to do, the others as much as before. -/
theorem sum_update_lt {κ ρ : Type} [Fintype κ] [DecidableEq κ] (μ : ρ → ℕ) (g : κ → ρ) {k : κ} {x : ρ}
    (h : μ x < μ (g k)) : ∑ j, μ (Function.update g k x j) < ∑ j, μ (g j) := by
  refine Finset.sum_lt_sum (fun j _ => ?_) ⟨k, Finset.mem_univ k, by rwa [Function.update_self]⟩
  rcases eq_or_ne j k with rfl | hne
  · rw [Function.update_self]
    exact h.le
  · rw [Function.update_of_ne hne]

end Transition
