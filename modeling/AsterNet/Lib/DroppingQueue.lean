import Mathlib.Data.List.Basic
import Mathlib.Data.List.Infix
import Mathlib.Tactic.Common

/-!
# A bounded queue that gives up its oldest entry

A full queue makes room for a new entry by dropping the one at its front.  An entry is known by its
ticket, its place among all that ever entered.  `Accounts` says that each entry which is not in the
queue any more was taken from it in turn, or dropped from a full queue as its oldest; `push` and the
removal of the front keep it.
-/

namespace DroppingQueue

variable {α : Type*}

/-- `pop_front` when the queue is full, and `push_back`. -/
def push (cap : ℕ) (queue : List α) (a : α) : List α :=
  (if cap ≤ queue.length then queue.tail else queue) ++ [a]

/-- The ticket of the front. -/
def ticket (entered queue : List α) : ℕ := entered.length - queue.length

/-- A dropped entry, and the queue it was the front of. -/
structure Displacement (α : Type*) where
  ticket : ℕ
  queue : List α
  deriving DecidableEq, Repr

/-- The displacements, after the one a new entry may bring. -/
def displace (cap : ℕ) (entered queue : List α) (displaced : List (Displacement α)) :
    List (Displacement α) :=
  if cap ≤ queue.length then displaced ++ [⟨ticket entered queue, queue⟩] else displaced

/-- What entered, what is in the queue, what was taken and what was dropped. -/
structure Accounts (cap : ℕ) (entered queue : List α) (taken : List ℕ)
    (displaced : List (Displacement α)) : Prop where
  length_le : queue.length ≤ cap
  suffix : queue <:+ entered
  gone_iff : ∀ i, i < ticket entered queue ↔ i ∈ taken ∨ ∃ d ∈ displaced, d.ticket = i
  taken_lt : taken.Pairwise (· < ·)
  apart : ∀ d ∈ displaced, d.ticket ∉ taken
  oldest : ∀ d ∈ displaced, d.queue.length = cap ∧ d.queue <+: entered.drop d.ticket

namespace Accounts

variable {cap : ℕ} {entered queue : List α} {taken : List ℕ} {displaced : List (Displacement α)}

theorem nil : Accounts cap ([] : List α) [] [] [] :=
  ⟨Nat.zero_le _, List.suffix_rfl, by simp [ticket], List.Pairwise.nil, by simp, by simp⟩

section

variable (h : Accounts cap entered queue taken displaced)

include h

/-- The queue is what entered last. -/
theorem queue_eq_drop : queue = entered.drop (ticket entered queue) :=
  List.suffix_iff_eq_drop.mp h.suffix

theorem length_queue_le : queue.length ≤ entered.length := h.suffix.length_le

/-- What is in the queue now is in front of what comes. -/
theorem queue_prefix (a : α) : queue <+: (entered ++ [a]).drop (ticket entered queue) := by
  have hle : ticket entered queue ≤ entered.length := Nat.sub_le _ _
  rw [List.drop_append_of_le_length hle, ← h.queue_eq_drop]
  exact List.prefix_append _ _

theorem notMem_taken : ticket entered queue ∉ taken := by
  intro hmem
  exact absurd ((h.gone_iff _).mpr (.inl hmem)) (lt_irrefl _)

theorem lt_of_mem_taken {i : ℕ} (hi : i ∈ taken) : i < ticket entered queue :=
  (h.gone_iff i).mpr (.inl hi)

end

/-- The front is the entry with its ticket. -/
theorem getElem?_ticket {a : α} {rest : List α} (h : Accounts cap entered (a :: rest) taken displaced) :
    entered[ticket entered (a :: rest)]? = some a := by
  have hqueue := h.queue_eq_drop
  have hhead : (entered.drop (ticket entered (a :: rest)))[0]? = some a := by
    rw [← hqueue]
    rfl
  rwa [List.getElem?_drop, Nat.add_zero] at hhead

/-- **The front is taken.** -/
theorem pop {a : α} {rest : List α} (h : Accounts cap entered (a :: rest) taken displaced) :
    Accounts cap entered rest (taken ++ [ticket entered (a :: rest)]) displaced := by
  have hlength := h.length_queue_le
  have hticket : ticket entered rest = ticket entered (a :: rest) + 1 := by
    unfold ticket
    rw [List.length_cons] at hlength ⊢
    omega
  refine ⟨?_, (List.suffix_cons a rest).trans h.suffix, ?_, ?_, ?_, h.oldest⟩
  · exact (Nat.le_succ _).trans h.length_le
  · intro i
    rw [hticket, Nat.lt_succ_iff_lt_or_eq, h.gone_iff, List.mem_append, List.mem_singleton,
      or_right_comm]
  · refine List.pairwise_append.mpr ⟨h.taken_lt, List.pairwise_singleton _ _, ?_⟩
    intro i hi j hj
    rw [List.mem_singleton.mp hj]
    exact h.lt_of_mem_taken hi
  · intro d hd hmem
    rcases List.mem_append.mp hmem with hmem | hmem
    · exact h.apart d hd hmem
    · have hgone := (h.gone_iff d.ticket).mpr (.inr ⟨d, hd, rfl⟩)
      rw [List.mem_singleton.mp hmem] at hgone
      exact absurd hgone (lt_irrefl _)

/-- What was dropped stays what it was when more enters. -/
theorem oldest_concat (h : Accounts cap entered queue taken displaced) (a : α) :
    ∀ d ∈ displaced, d.queue.length = cap ∧ d.queue <+: (entered ++ [a]).drop d.ticket := by
  intro d hd
  obtain ⟨hfull, hstart⟩ := h.oldest d hd
  have hlt : d.ticket < ticket entered queue := (h.gone_iff d.ticket).mpr (.inr ⟨d, hd, rfl⟩)
  refine ⟨hfull, hstart.trans ?_⟩
  rw [List.drop_append_of_le_length (hlt.le.trans (Nat.sub_le _ _))]
  exact List.prefix_append _ _

/-- **An entry comes in.** -/
theorem push (h : Accounts cap entered queue taken displaced) (hcap : 0 < cap) (a : α) :
    Accounts cap (entered ++ [a]) (push cap queue a) taken (displace cap entered queue displaced) := by
  have hlength := h.length_queue_le
  unfold DroppingQueue.push displace
  by_cases hfull : cap ≤ queue.length
  · obtain ⟨front, rest, rfl⟩ := List.exists_cons_of_length_pos (hcap.trans_le hfull)
    have hticket : ticket (entered ++ [a]) (rest ++ [a]) = ticket entered (front :: rest) + 1 := by
      unfold ticket
      simp only [List.length_append, List.length_cons, List.length_nil] at hlength ⊢
      omega
    rw [if_pos hfull, if_pos hfull, List.tail_cons]
    refine ⟨?_, ?_, ?_, h.taken_lt, ?_, ?_⟩
    · have hle := h.length_le
      rw [List.length_append]
      exact hle
    · obtain ⟨before, rfl⟩ := (List.suffix_cons front rest).trans h.suffix
      rw [List.append_assoc]
      exact List.suffix_append _ _
    · intro i
      rw [hticket, Nat.lt_succ_iff_lt_or_eq, h.gone_iff]
      simp only [List.mem_append, List.mem_singleton, or_and_right, exists_or, exists_eq_left, or_assoc,
        eq_comm (a := i)]
    · intro d hd
      rcases List.mem_append.mp hd with hd | hd
      · exact h.apart d hd
      · rw [List.mem_singleton.mp hd]
        exact h.notMem_taken
    · intro d hd
      rcases List.mem_append.mp hd with hd | hd
      · exact h.oldest_concat a d hd
      · rw [List.mem_singleton.mp hd]
        exact ⟨le_antisymm h.length_le hfull, h.queue_prefix a⟩
  · have hticket : ticket (entered ++ [a]) (queue ++ [a]) = ticket entered queue := by
      unfold ticket
      rw [List.length_append, List.length_append]
      omega
    rw [if_neg hfull, if_neg hfull]
    refine ⟨?_, ?_, ?_, h.taken_lt, h.apart, h.oldest_concat a⟩
    · rw [List.length_append]
      exact Nat.not_le.mp hfull
    · obtain ⟨before, rfl⟩ := h.suffix
      rw [List.append_assoc]
      exact List.suffix_append _ _
    · rw [hticket]
      exact h.gone_iff

end Accounts

end DroppingQueue
