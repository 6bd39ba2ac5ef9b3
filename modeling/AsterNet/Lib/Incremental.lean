import AsterNet.Lib.Segmented

/-!
# Parsers that run again on a growing buffer

A parser of this kind looks at everything received so far and answers that it needs more, that the
input is wrong, or that a message is complete, with its value and the bytes behind it.  `Lawful` says
that more input never changes a definite answer and that the message alone is complete.

`Lawful.incomplete_of_lt` is the case of an unfinished message, `FirstAnswer` the shortest part of an
input with a definite answer.  `pending` is the condition of the loop that reads as long as the parser
wants more and the buffer is within a limit; `Lawful.readWhile_of_firstAt` says where it ends when there is
an answer within the limit, `readWhile_of_incomplete` where it ends when there is none, and
`Lawful.readWhile_of_fits` and `Lawful.lt_length_readWhile` are the rules for a stream of one message.
-/

namespace Incremental

open Segmented

/-- The answer of a parser. -/
inductive Parse (α : Type)
  | incomplete
  | invalid
  | complete (value : α) (rest : Bytes)
  deriving DecidableEq, Repr

/-- More input never changes a definite answer, and the message alone is complete. -/
structure Lawful {α : Type} (parse : Bytes → Parse α) : Prop where
  append_complete : ∀ {s a rest}, parse s = .complete a rest →
    ∀ t, parse (s ++ t) = .complete a (rest ++ t)
  append_invalid : ∀ {s}, parse s = .invalid → ∀ t, parse (s ++ t) = .invalid
  exact : ∀ {s a rest}, parse s = .complete a rest →
    ∃ m, s = m ++ rest ∧ parse m = .complete a []

/-- The shortest part of an input on which the answer is definite. -/
structure FirstAnswer {α : Type} (parse : Bytes → Parse α) (p : Bytes) : Prop where
  definite : parse p ≠ .incomplete
  before : ∀ q, q <+: p → q.length < p.length → parse q = .incomplete

/-- An input with a definite answer has a shortest part with one. -/
theorem exists_firstAnswer {α : Type} {parse : Bytes → Parse α} {s : Bytes}
    (h : parse s ≠ .incomplete) : ∃ p, p <+: s ∧ FirstAnswer parse p := by
  classical
  have hex : ∃ k, parse (s.take k) ≠ .incomplete := ⟨s.length, by rwa [List.take_length]⟩
  refine ⟨s.take (Nat.find hex), List.take_prefix _ _, Nat.find_spec hex, ?_⟩
  intro q hq hlt
  have hshort : q.length < Nat.find hex := by
    rw [List.length_take] at hlt
    omega
  have hqs : q = s.take q.length := List.prefix_iff_eq_take.mp (hq.trans (List.take_prefix _ _))
  rw [hqs]
  exact not_not.mp (Nat.find_min hex hshort)

section Pending

variable {α : Type} [DecidableEq α] {parse : Bytes → Parse α}

/-- `while (buf.size() <= limit) { result = parse(buf); if (result != incomplete) break; … }` -/
def pending (parse : Bytes → Parse α) (limit : ℕ) (buf : Bytes) : Bool :=
  decide (buf.length ≤ limit) && decide (parse buf = .incomplete)

theorem pending_iff {limit : ℕ} {buf : Bytes} :
    pending parse limit buf = true ↔ buf.length ≤ limit ∧ parse buf = .incomplete := by
  rw [pending, Bool.and_eq_true, decide_eq_true_iff, decide_eq_true_iff]

/-- Without a definite answer within the limit the loop ends beyond it, or with the stream. -/
theorem readWhile_of_incomplete {limit n : ℕ} {buf : Bytes} {s : Source} (hn : 0 < n)
    (hinc : ∀ p, p <+: buf ++ s.bytes → p.length ≤ limit → parse p = .incomplete) :
    limit < (readWhile (pending parse limit) (fun _ => n) buf s).1.length ∨
      (readWhile (pending parse limit) (fun _ => n) buf s).1 = buf ++ s.bytes := by
  have hall := readWhile_bytes (pending parse limit) (fun _ => n) buf s
  rcases readWhile_stop (pending parse limit) (fun _ => n) buf s with hdone | hzero | hnil
  · left
    by_contra hle
    have hpending := pending_iff.mpr ⟨not_lt.mp hle, hinc _ ⟨_, hall⟩ (not_lt.mp hle)⟩
    rw [hdone] at hpending
    cases hpending
  · exact absurd hzero hn.ne'
  · right
    rw [← hall, hnil, List.append_nil]

end Pending

namespace Lawful

variable {α : Type} {parse : Bytes → Parse α} {m p rest : Bytes} {a : α}

/-- An unfinished message is incomplete. -/
theorem incomplete_of_lt (hp : Lawful parse) (hm : parse m = .complete a []) (hpre : p <+: m)
    (hlt : p.length < m.length) : parse p = .incomplete := by
  obtain ⟨t, rfl⟩ := hpre
  have hne : t ≠ [] := by
    rintro rfl
    simp at hlt
  cases h : parse p with
  | incomplete => rfl
  | invalid =>
    rw [hp.append_invalid h t] at hm
    cases hm
  | complete b r =>
    rw [hp.append_complete h t] at hm
    injection hm with _ hr
    exact absurd (List.append_eq_nil_iff.mp hr).2 hne

/-- What continues a definite answer is not incomplete. -/
theorem append_ne_incomplete (hp : Lawful parse) (hdef : parse p ≠ .incomplete) (t : Bytes) :
    parse (p ++ t) ≠ .incomplete := by
  cases h : parse p with
  | incomplete => exact absurd h hdef
  | invalid => simp [hp.append_invalid h t]
  | complete a rest => simp [hp.append_complete h t]

/-- A message is the shortest part of an input on which the answer is definite. -/
theorem firstAnswer (hp : Lawful parse) (hm : parse m = .complete a []) : FirstAnswer parse m where
  definite := by simp [hm]
  before := fun _ hq hlt => hp.incomplete_of_lt hm hq hlt

section Loop

variable [DecidableEq α]

variable {limit n : ℕ} {buf : Bytes} {s : Source}

/-- The loop ends with the read that brings the first definite answer, if that is within the limit. -/
theorem readWhile_of_firstAt (hp : Lawful parse) {d : Bytes} {after : Source}
    (hpre : p <+: buf ++ s.bytes) (hanswer : FirstAnswer parse p) (hfits : p.length ≤ limit)
    (hfirst : FirstAt n s (p.length - buf.length) d after) :
    readWhile (pending parse limit) (fun _ => n) buf s = (buf ++ d, after) := by
  have hle := hfirst.le
  refine readWhile_eq_of_reads hfirst.reads (fun e mid he hlt => ?_) (.inl ?_)
  · -- the answer is not there yet
    have hbefore := hfirst.lt_of_lt he hlt
    have hlen : (buf ++ e).length < p.length := by
      rw [List.length_append]
      omega
    have hpe : buf ++ e <+: p := by
      apply List.prefix_of_prefix_length_le _ hpre hlen.le
      rw [he.bytes_eq, ← List.append_assoc]
      exact List.prefix_append _ _
    exact pending_iff.mpr ⟨by omega, hanswer.before _ hpe hlen⟩
  · have hpd : p <+: buf ++ d := by
      apply List.prefix_of_prefix_length_le hpre
      · rw [hfirst.reads.bytes_eq, ← List.append_assoc]
        exact List.prefix_append _ _
      · rw [List.length_append]
        omega
    obtain ⟨t, ht⟩ := hpd
    rw [← Bool.not_eq_true, pending_iff, ← ht]
    rintro ⟨-, hinc⟩
    exact hp.append_ne_incomplete hanswer.definite t hinc

/-- Over a stream that holds exactly one message within the limit, the loop ends with it. -/
theorem readWhile_of_fits (hp : Lawful parse) (hn : 0 < n) (hm : parse m = .complete a [])
    (hbytes : buf ++ s.bytes = m) (hfits : m.length ≤ limit) :
    (readWhile (pending parse limit) (fun _ => n) buf s).1 = m := by
  have hthreshold : m.length ≤ (readWhile (pending parse limit) (fun _ => n) buf s).1.length := by
    refine (readWhile_threshold (m := n) (by rw [hbytes]) ?_ fun _ _ => ⟨hn, le_rfl⟩).1
    intro p _ hpm
    rw [hbytes] at hpm
    rw [pending_iff]
    -- the parser wants more exactly as long as the message is not there
    constructor
    · rintro ⟨-, hinc⟩
      have hle := hpm.length_le
      rcases hle.lt_or_eq with hlt | heq
      · exact hlt
      · rw [hpm.eq_of_length heq, hm] at hinc
        cases hinc
    · intro hlt
      exact ⟨by omega, hp.incomplete_of_lt hm hpm hlt⟩
  have hpre : (readWhile (pending parse limit) (fun _ => n) buf s).1 <+: m :=
    ⟨_, (readWhile_bytes ..).trans hbytes⟩
  exact hpre.eq_of_length_le hthreshold

/-- Over a stream that holds exactly one message beyond the limit, it ends beyond the limit. -/
theorem lt_length_readWhile (hp : Lawful parse) (hn : 0 < n) (hm : parse m = .complete a [])
    (hbytes : buf ++ s.bytes = m) (hlong : limit < m.length) :
    limit < (readWhile (pending parse limit) (fun _ => n) buf s).1.length := by
  by_contra hle
  rw [not_lt] at hle
  have hall := readWhile_bytes (pending parse limit) (fun _ => n) buf s
  rw [hbytes] at hall
  have hstop := readWhile_stop (pending parse limit) (fun _ => n) buf s
  have hpre : (readWhile (pending parse limit) (fun _ => n) buf s).1 <+: m := ⟨_, hall⟩
  have hpend := pending_iff.mpr ⟨hle, hp.incomplete_of_lt hm hpre (by omega)⟩
  rcases hstop with h | h | h
  · rw [hpend] at h
    cases h
  · omega
  · rw [h, List.append_nil] at hall
    rw [hall] at hle
    omega

end Loop

end Lawful

end Incremental
