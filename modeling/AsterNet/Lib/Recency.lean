import Mathlib.Data.Finset.Card
import Mathlib.Data.List.TakeWhile

/-!
# How recently something was used

A history lists uses, newest first.  `Older` compares the last uses of two things, `since` is what was
used since the last use of one.  Of a set in which `a` is the oldest, all but `a` was used since
(`card_le_card_since`).
-/

namespace Recency

variable {α : Type} [DecidableEq α]

/-- The last use of `a` is older than that of `b`. -/
def Older (history : List α) (a b : α) : Prop := history.idxOf b < history.idxOf a

/-- What was used since the last use of `a`. -/
def since (history : List α) (a : α) : Finset α := (history.takeWhile (· != a)).toFinset

theorem mem_since_iff {history : List α} {a b : α} : b ∈ since history a ↔ Older history a b := by
  unfold since Older
  rw [List.mem_toFinset]
  induction history with
  | nil => simp
  | cons c history ih =>
    rcases eq_or_ne c a with rfl | hca
    · simp
    · rw [List.takeWhile_cons_of_pos (by simpa using hca), List.mem_cons, ih, List.idxOf_cons_ne _ hca]
      rcases eq_or_ne c b with rfl | hcb
      · simp
      · rw [List.idxOf_cons_ne _ hcb, Nat.succ_lt_succ_iff]
        simp [hcb.symm]

/-- Nothing was used after the newest use. -/
theorem not_older_head {history : List α} {a b : α} : ¬ Older (a :: history) a b := by
  unfold Older
  rw [List.idxOf_cons_self]
  exact Nat.not_lt_zero _

/-- Where `a` is the oldest of a set, the others were used since. -/
theorem card_le_card_since {history : List α} {a : α} {s : Finset α}
    (h : ∀ b ∈ s, b ≠ a → Older history a b) : s.card ≤ (since history a).card + 1 := by
  have hsub : s ⊆ insert a (since history a) := by
    intro b hb
    rw [Finset.mem_insert]
    by_cases hba : b = a
    · exact .inl hba
    · exact .inr (mem_since_iff.mpr (h b hb hba))
  exact (Finset.card_le_card hsub).trans (Finset.card_insert_le a _)

end Recency
