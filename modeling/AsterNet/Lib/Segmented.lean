import AsterNet.Lib.ByteString

/-!
# Input that arrives in pieces

A `Source` is a byte stream cut into pieces, with the way it ends.  `Source.read n` delivers at most
`n` bytes and never more than the rest of one piece, so the lists of pieces with a given
concatenation are exactly the ways a reader can see that stream split.

`readWhile cond size` is the loop

    while (cond(buf)) { r = read(size(buf)); if (r <= 0) break; buf.append(r); }

`readWhile_bytes` (nothing is lost or invented), `readWhile_stop` (why it stops) and
`readWhile_last` (the last read was asked for) determine its result; `readWhile_threshold` is the
rule for a loop that goes on exactly as long as the buffer is shorter than `n` bytes, and
`readWhile_eq_of_exact` the one for a loop that never asks for more than it needs.  `Reads n` are the
read boundaries of a reader that always asks for `n` bytes; `reads_readWhile` and `cond_of_reads` place
a loop among them, and `readWhile_eq_of_reads` says where it ends.  `FirstAt n s k` is the first boundary
behind a position.
-/

namespace Segmented

/-- How a stream ends: `eof` is a clean end (the read answers `0`), `failure` a failed read. -/
inductive Ending
  | eof
  | failure
  deriving DecidableEq, Repr

/-- A stream in pieces. -/
structure Source where
  pieces : List Bytes
  ending : Ending
  deriving DecidableEq, Repr

/-- The return value of a read, with the bytes and the rest of the stream when it is positive. -/
inductive ReadResult
  | positive (data : Bytes) (rest : Source)
  | zero
  | negative
  deriving DecidableEq, Repr

namespace Source

/-- All bytes still to come. -/
def bytes (s : Source) : Bytes := s.pieces.flatten

/-- A read of at most `n` bytes.  Empty pieces are skipped; a read of no bytes answers `0`. -/
def read (n : ℕ) : Source → ReadResult
  | ⟨[], .eof⟩ => .zero
  | ⟨[], .failure⟩ => .negative
  | ⟨[] :: ps, e⟩ => read n ⟨ps, e⟩
  | ⟨(c :: p) :: ps, e⟩ =>
    if n = 0 then .zero else .positive ((c :: p).take n) ⟨(c :: p).drop n :: ps, e⟩
termination_by s => s.pieces.length

/-- A positive read: nonempty, no longer than asked, the front of the stream. -/
theorem read_positive {n : ℕ} {s rest : Source} {d : Bytes} (h : s.read n = .positive d rest) :
    d ≠ [] ∧ d.length ≤ n ∧ s.bytes = d ++ rest.bytes ∧ rest.ending = s.ending := by
  induction s using read.induct n with
  | case1 => simp [read] at h
  | case2 => simp [read] at h
  | case3 ps e ih =>
    rw [read] at h
    simpa [bytes] using ih h
  | case4 c p ps e hn => simp [read, hn] at h
  | case5 c p ps e hn =>
    rw [read, if_neg hn] at h
    obtain ⟨rfl, rfl⟩ := ReadResult.positive.inj h
    refine ⟨by simp [hn], List.length_take_le _ _, ?_, rfl⟩
    rw [bytes, bytes, List.flatten_cons, List.flatten_cons, ← List.append_assoc,
      List.take_append_drop]

/-- A read is not positive only when nothing was asked for or nothing is left. -/
theorem read_not_positive {n : ℕ} {s : Source} (h : ∀ d rest, s.read n ≠ .positive d rest) :
    n = 0 ∨ s.bytes = [] := by
  induction s using read.induct n with
  | case1 => exact .inr rfl
  | case2 => exact .inr rfl
  | case3 ps e ih =>
    rw [read] at h
    simpa [bytes] using ih h
  | case4 c p ps e hn => exact .inl hn
  | case5 c p ps e hn =>
    rw [read, if_neg hn] at h
    exact absurd rfl (h _ _)

/-- At the end of the stream a read answers how the stream ended. -/
theorem read_of_bytes_eq_nil {s : Source} (h : s.bytes = []) (n : ℕ) :
    s.read n = if s.ending = .failure then .negative else .zero := by
  induction s using read.induct n with
  | case1 => simp [read]
  | case2 => simp [read]
  | case3 ps e ih =>
    rw [read]
    exact ih (by simpa [bytes] using h)
  | case4 c p ps e => simp [bytes] at h
  | case5 c p ps e => simp [bytes] at h

theorem length_bytes_lt_of_read {n : ℕ} {s rest : Source} {d : Bytes}
    (h : s.read n = .positive d rest) : rest.bytes.length < s.bytes.length := by
  obtain ⟨hd, -, hb, -⟩ := read_positive h
  rw [hb, List.length_append]
  have := List.length_pos_of_ne_nil hd
  omega

end Source

/-- `while (cond(buf)) { r = read(size(buf)); if (r <= 0) break; buf.append(r); }` -/
def readWhile (cond : Bytes → Bool) (size : Bytes → ℕ) (buf : Bytes) (s : Source) :
    Bytes × Source :=
  if cond buf then
    match _h : s.read (size buf) with
    | .positive d rest => readWhile cond size (buf ++ d) rest
    | .zero => (buf, s)
    | .negative => (buf, s)
  else (buf, s)
termination_by s.bytes.length
decreasing_by exact Source.length_bytes_lt_of_read _h

section Loop

variable (cond : Bytes → Bool) (size : Bytes → ℕ)

/-- The three ways through the loop: the condition fails, the read is not positive, or the loop goes
on after a positive read. -/
theorem readWhile_cases (buf : Bytes) (s : Source) :
    (cond buf = false ∧ readWhile cond size buf s = (buf, s)) ∨
    (cond buf = true ∧ (size buf = 0 ∨ s.bytes = []) ∧ readWhile cond size buf s = (buf, s)) ∨
    (∃ d rest, cond buf = true ∧ s.read (size buf) = .positive d rest ∧
      readWhile cond size buf s = readWhile cond size (buf ++ d) rest) := by
  rw [readWhile]
  split_ifs with hc
  · split
    · rename_i d rest hr
      exact .inr (.inr ⟨d, rest, hc, hr, rfl⟩)
    · rename_i hr
      exact .inr (.inl ⟨hc, Source.read_not_positive (by simp [hr]), rfl⟩)
    · rename_i hr
      exact .inr (.inl ⟨hc, Source.read_not_positive (by simp [hr]), rfl⟩)
  · exact .inl ⟨by simpa using hc, rfl⟩

/-- Induction along the loop: what holds when it stops at once and is carried back over one read
holds of its result. -/
theorem readWhile_induction {P : Bytes → Source → Bytes × Source → Prop}
    (hstop : ∀ buf s, cond buf = false ∨ size buf = 0 ∨ s.bytes = [] → P buf s (buf, s))
    (hread : ∀ buf s d rest r, cond buf = true → s.read (size buf) = .positive d rest →
      P (buf ++ d) rest r → P buf s r)
    (buf : Bytes) (s : Source) : P buf s (readWhile cond size buf s) := by
  induction hn : s.bytes.length using Nat.strong_induction_on generalizing buf s with
  | _ n ih =>
    rcases readWhile_cases cond size buf s with ⟨hc, h⟩ | ⟨-, hs, h⟩ | ⟨d, rest, hc, hr, h⟩
    · rw [h]; exact hstop buf s (.inl hc)
    · rw [h]; exact hstop buf s (.inr hs)
    · rw [h]
      exact hread buf s d rest _ hc hr
        (ih _ (hn ▸ Source.length_bytes_lt_of_read hr) (buf ++ d) rest rfl)

/-- Nothing is lost and nothing invented. -/
theorem readWhile_bytes (buf : Bytes) (s : Source) :
    (readWhile cond size buf s).1 ++ (readWhile cond size buf s).2.bytes = buf ++ s.bytes := by
  refine readWhile_induction cond size (P := fun buf s r => r.1 ++ r.2.bytes = buf ++ s.bytes)
    (fun _ _ _ => rfl) ?_ buf s
  intro buf s d rest r _ hr ih
  rw [ih, (Source.read_positive hr).2.2.1, List.append_assoc]

theorem prefix_readWhile (buf : Bytes) (s : Source) : buf <+: (readWhile cond size buf s).1 := by
  refine readWhile_induction cond size (P := fun buf _ r => buf <+: r.1)
    (fun _ _ _ => List.prefix_rfl) ?_ buf s
  intro buf s d rest r _ _ ih
  exact (List.prefix_append buf d).trans ih

theorem readWhile_ending (buf : Bytes) (s : Source) :
    (readWhile cond size buf s).2.ending = s.ending := by
  refine readWhile_induction cond size (P := fun _ s r => r.2.ending = s.ending)
    (fun _ _ _ => rfl) ?_ buf s
  intro buf s d rest r _ hr ih
  rw [ih, (Source.read_positive hr).2.2.2]

/-- Why the loop stops: the condition fails, it asks for nothing, or nothing is left. -/
theorem readWhile_stop (buf : Bytes) (s : Source) :
    cond (readWhile cond size buf s).1 = false ∨ size (readWhile cond size buf s).1 = 0 ∨
      (readWhile cond size buf s).2.bytes = [] := by
  refine readWhile_induction cond size
    (P := fun _ _ r => cond r.1 = false ∨ size r.1 = 0 ∨ r.2.bytes = [])
    (fun _ _ h => h) ?_ buf s
  intro buf s d rest r _ _ ih
  exact ih

/-- The last read, if there was one, was asked for and gave no more than asked. -/
theorem readWhile_last (buf : Bytes) (s : Source) :
    (readWhile cond size buf s).1 = buf ∨ ∃ p d, (readWhile cond size buf s).1 = p ++ d ∧
      buf <+: p ∧ cond p = true ∧ d.length ≤ size p := by
  refine readWhile_induction cond size (P := fun buf _ r => r.1 = buf ∨
    ∃ p d, r.1 = p ++ d ∧ buf <+: p ∧ cond p = true ∧ d.length ≤ size p)
    (fun _ _ _ => .inl rfl) ?_ buf s
  intro buf s d rest r hc hr ih
  right
  rcases ih with ih | ⟨p, d', hp, hpre, hcp, hd'⟩
  · exact ⟨buf, d, ih, List.prefix_rfl, hc, (Source.read_positive hr).2.1⟩
  · exact ⟨p, d', hp, (List.prefix_append _ _).trans hpre, hcp, hd'⟩

variable {cond size}

/-- **The threshold rule.**  A loop that goes on exactly while the buffer is shorter than `n`, over a
stream that has `n` bytes, ends with at least `n` bytes and overshoots by less than one read. -/
theorem readWhile_threshold {buf : Bytes} {s : Source} {n m : ℕ}
    (hn : n ≤ (buf ++ s.bytes).length)
    (hcond : ∀ p, buf <+: p → p <+: buf ++ s.bytes → (cond p = true ↔ p.length < n))
    (hsize : ∀ p, cond p = true → 0 < size p ∧ size p ≤ m) :
    n ≤ (readWhile cond size buf s).1.length ∧
      ((readWhile cond size buf s).1 = buf ∨ (readWhile cond size buf s).1.length < n + m) := by
  have hbytes := readWhile_bytes cond size buf s
  have hpre := prefix_readWhile cond size buf s
  have hlast := readWhile_last cond size buf s
  have hstop := readWhile_stop cond size buf s
  set r := readWhile cond size buf s
  have hr : r.1 <+: buf ++ s.bytes := ⟨_, hbytes⟩
  constructor
  · -- the loop does not stop below the threshold
    by_contra hlt
    have hc : cond r.1 = true := (hcond r.1 hpre hr).mpr (by omega)
    rcases hstop with h | h | h
    · rw [hc] at h; cases h
    · exact absurd (hsize r.1 hc).1 (by omega)
    · rw [h, List.append_nil] at hbytes
      rw [hbytes] at hlt
      exact hlt hn
  · -- the last read began below the threshold
    rcases hlast with h | ⟨p, d, hp, hbp, hcp, hd⟩
    · exact .inl h
    · right
      have hpw : p <+: buf ++ s.bytes := (hp ▸ List.prefix_append p d).trans hr
      have := (hcond p hbp hpw).mp hcp
      have := (hsize p hcp).2
      rw [hp, List.length_append]
      omega

/-- **The exact rule.**  A loop that goes on while the buffer is shorter than `n` and never asks for
more than what is missing ends with exactly the first `n` bytes. -/
theorem readWhile_eq_of_exact {buf : Bytes} {s : Source} {n : ℕ} (hbuf : buf.length ≤ n)
    (hn : n ≤ (buf ++ s.bytes).length)
    (hcond : ∀ p, cond p = true ↔ p.length < n)
    (hsize : ∀ p, cond p = true → 0 < size p ∧ p.length + size p ≤ n) :
    (readWhile cond size buf s).1 = (buf ++ s.bytes).take n := by
  have hle : n ≤ (readWhile cond size buf s).1.length :=
    (readWhile_threshold (m := n) hn (fun p _ _ => hcond p)
      fun p hp => ⟨(hsize p hp).1, by have := (hsize p hp).2; omega⟩).1
  have hge : (readWhile cond size buf s).1.length ≤ n := by
    rcases readWhile_last cond size buf s with h | ⟨p, d, hp, -, hcp, hd⟩
    · rw [h]; exact hbuf
    · have := (hsize p hcp).2
      rw [hp, List.length_append]
      omega
  have hr : (readWhile cond size buf s).1 <+: buf ++ s.bytes := ⟨_, readWhile_bytes ..⟩
  rw [List.prefix_iff_eq_take.mp hr, le_antisymm hge hle]

end Loop

/-! ### Read boundaries -/

/-- `Reads n s d rest`: some number of reads of `n` bytes deliver exactly `d` and leave `rest`. -/
inductive Reads (n : ℕ) : Source → Bytes → Source → Prop
  | done (s : Source) : Reads n s [] s
  | step {s mid rest : Source} {d e : Bytes} (hr : s.read n = .positive d mid)
      (h : Reads n mid e rest) : Reads n s (d ++ e) rest

namespace Reads

variable {n : ℕ} {s mid rest : Source} {d e : Bytes}

theorem bytes_eq (h : Reads n s d rest) : s.bytes = d ++ rest.bytes := by
  induction h with
  | done s => rfl
  | step hr _ ih => rw [(Source.read_positive hr).2.2.1, ih, List.append_assoc]

theorem trans (h : Reads n s d mid) (h' : Reads n mid e rest) : Reads n s (d ++ e) rest := by
  induction h with
  | done s => exact h'
  | step hr _ ih => rw [List.append_assoc]; exact .step hr (ih h')

/-- A reader of fixed-size reads passes the same boundaries whoever stops it: from one boundary it
goes on to every later one. -/
theorem exists_append {d' : Bytes} {rest' : Source} (h : Reads n s d rest)
    (h' : Reads n s d' rest') (hlen : d.length ≤ d'.length) :
    ∃ e, d' = d ++ e ∧ Reads n rest e rest' := by
  induction h generalizing d' with
  | done s => exact ⟨d', rfl, h'⟩
  | @step s mid rest d e hr h ih =>
    cases h' with
    | done =>
      have := List.length_pos_of_ne_nil (Source.read_positive hr).1
      simp only [List.length_nil, List.length_append] at hlen
      omega
    | step hr' h' =>
      obtain ⟨rfl, rfl⟩ := ReadResult.positive.inj (hr.symm.trans hr')
      obtain ⟨e', rfl, he'⟩ := ih h' (by simpa using hlen)
      exact ⟨e', (List.append_assoc ..).symm, he'⟩

end Reads

/-- A loop whose reads all have the same size passes along the read boundaries. -/
theorem reads_readWhile {cond : Bytes → Bool} {n : ℕ} (buf : Bytes) (s : Source) :
    ∃ d, (readWhile cond (fun _ => n) buf s).1 = buf ++ d ∧
      Reads n s d (readWhile cond (fun _ => n) buf s).2 := by
  refine readWhile_induction cond (fun _ => n)
    (P := fun buf s r => ∃ d, r.1 = buf ++ d ∧ Reads n s d r.2) ?_ ?_ buf s
  · intro buf s _
    exact ⟨[], by simp, .done s⟩
  · rintro buf s d rest r - hr ⟨e, he, h⟩
    exact ⟨d ++ e, by rw [he, List.append_assoc], .step hr h⟩

/-- A boundary that lies before the loop's end was passed while the condition still held. -/
theorem cond_of_reads {cond : Bytes → Bool} {n : ℕ} {buf d : Bytes} {s rest : Source}
    (h : Reads n s d rest)
    (hlt : (buf ++ d).length < (readWhile cond (fun _ => n) buf s).1.length) :
    cond (buf ++ d) = true := by
  induction h generalizing buf with
  | done s =>
    rw [List.append_nil] at hlt ⊢
    rcases readWhile_cases cond (fun _ => n) buf s with ⟨-, heq⟩ | ⟨hc, -⟩ | ⟨_, _, hc, -⟩
    · rw [heq] at hlt
      exact absurd hlt (lt_irrefl _)
    · exact hc
    · exact hc
  | @step s mid rest d e hr h ih =>
    have hpos := List.length_pos_of_ne_nil (Source.read_positive hr).1
    rw [← List.append_assoc] at hlt ⊢
    rcases readWhile_cases cond (fun _ => n) buf s with ⟨-, heq⟩ | ⟨-, -, heq⟩ |
      ⟨d', rest', -, hr', heq⟩
    · rw [heq] at hlt
      change (buf ++ d ++ e).length < buf.length at hlt
      simp only [List.length_append] at hlt
      omega
    · rw [heq] at hlt
      change (buf ++ d ++ e).length < buf.length at hlt
      simp only [List.length_append] at hlt
      omega
    · -- both follow the same read
      obtain ⟨rfl, rfl⟩ := ReadResult.positive.inj (hr.symm.trans hr')
      rw [heq] at hlt
      exact ih hlt

/-- A loop whose reads all have the same size ends at the first boundary at which it stops. -/
theorem readWhile_eq_of_reads {cond : Bytes → Bool} {n : ℕ} {buf d : Bytes} {s rest : Source}
    (h : Reads n s d rest)
    (hpassed : ∀ e mid, Reads n s e mid → e.length < d.length → cond (buf ++ e) = true)
    (hstop : cond (buf ++ d) = false ∨ n = 0 ∨ rest.bytes = []) :
    readWhile cond (fun _ => n) buf s = (buf ++ d, rest) := by
  induction h generalizing buf with
  | done s =>
    rw [List.append_nil] at hstop ⊢
    rcases readWhile_cases cond (fun _ => n) buf s with ⟨-, heq⟩ | ⟨-, -, heq⟩ | ⟨d, rest, hc, hr, -⟩
    · exact heq
    · exact heq
    · -- no read is positive here
      obtain ⟨hd, hle, hbytes, -⟩ := Source.read_positive hr
      rcases hstop with hfalse | hzero | hnil
      · rw [hc] at hfalse
        cases hfalse
      · rw [hzero] at hle
        exact absurd (List.length_eq_zero_iff.mp (Nat.le_zero.mp hle)) hd
      · rw [hnil] at hbytes
        exact absurd (List.append_eq_nil_iff.mp hbytes.symm).1 hd
  | @step s mid rest d e hr h ih =>
    have hpos := List.length_pos_of_ne_nil (Source.read_positive hr).1
    have hgo : cond buf = true := by
      have := hpassed [] s (.done s) (by rw [List.length_append, List.length_nil]; omega)
      rwa [List.append_nil] at this
    have hloop : readWhile cond (fun _ => n) buf s = readWhile cond (fun _ => n) (buf ++ d) mid := by
      rw [readWhile, if_pos hgo]
      split
      · case h_1 d' rest' hr' =>
        obtain ⟨rfl, rfl⟩ := ReadResult.positive.inj (hr.symm.trans hr')
        rfl
      · case h_2 hr' => exact absurd (hr.symm.trans hr') (by simp)
      · case h_3 hr' => exact absurd (hr.symm.trans hr') (by simp)
    rw [← List.append_assoc] at hstop
    rw [hloop, ih ?_ hstop, List.append_assoc]
    intro e' mid' he' hlt
    rw [List.append_assoc]
    refine hpassed (d ++ e') mid' (.step hr he') ?_
    rw [List.length_append, List.length_append]
    omega

/-! ### The first boundary behind a position -/

/-- The first read boundary at or behind the position `k`. -/
structure FirstAt (n : ℕ) (s : Source) (k : ℕ) (d : Bytes) (rest : Source) : Prop where
  reads : Reads n s d rest
  le : k ≤ d.length
  first : ∀ e mid, Reads n s e mid → k ≤ e.length → d.length ≤ e.length

namespace FirstAt

variable {n k : ℕ} {s rest rest' : Source} {d d' : Bytes}

theorem lt_of_lt (h : FirstAt n s k d rest) {e : Bytes} {mid : Source} (he : Reads n s e mid)
    (hlt : e.length < d.length) : e.length < k := by
  by_contra hge
  have := h.first e mid he (not_lt.mp hge)
  omega

/-- There is one before the end of the stream, less than one read behind the position. -/
theorem exists_of_le (hn : 0 < n) (hk : k ≤ s.bytes.length) :
    ∃ d rest, FirstAt n s k d rest ∧ d.length < k + n := by
  have hthreshold := @readWhile_threshold (fun p => decide (p.length < k)) (fun _ => n) [] s k n
    (by rwa [List.nil_append]) (fun p _ _ => decide_eq_true_iff) (fun _ _ => ⟨hn, le_rfl⟩)
  obtain ⟨d, hd, hreads⟩ := @reads_readWhile (fun p => decide (p.length < k)) n [] s
  rw [List.nil_append] at hd
  rw [hd] at hthreshold
  refine ⟨d, _, ⟨hreads, hthreshold.1, fun e mid he hke => ?_⟩, ?_⟩
  · by_contra hlt
    have hpassed := @cond_of_reads (fun p => decide (p.length < k)) n [] e s mid he
      (by rw [hd, List.nil_append]; omega)
    rw [List.nil_append, decide_eq_true_iff] at hpassed
    omega
  · rcases hthreshold.2 with hnil | hlt
    · rw [hnil, List.length_nil]
      omega
    · exact hlt

/-- A boundary that was passed before does not change where the first one is. -/
theorem behind (h : FirstAt n s k d rest) {d₀ : Bytes} {mid : Source} (h₀ : Reads n s d₀ mid)
    (hle : d₀.length ≤ d.length) : ∃ e, d = d₀ ++ e ∧ FirstAt n mid (k - d₀.length) e rest := by
  obtain ⟨e, rfl, he⟩ := h₀.exists_append h.reads hle
  refine ⟨e, rfl, he, ?_, ?_⟩
  · have := h.le
    rw [List.length_append] at this
    omega
  · intro e' mid' he' hk
    have := h.first (d₀ ++ e') mid' (h₀.trans he') (by rw [List.length_append]; omega)
    rw [List.length_append, List.length_append] at this
    omega

theorem unique (h : FirstAt n s k d rest) (h' : FirstAt n s k d' rest') : d = d' ∧ rest = rest' := by
  have hle := h.first d' rest' h'.reads h'.le
  have hge := h'.first d rest h.reads h.le
  obtain ⟨e, rfl, he⟩ := h.reads.exists_append h'.reads hle
  cases he with
  | done => exact ⟨(List.append_nil d).symm, rfl⟩
  | step hr _ =>
    have hpos := List.length_pos_of_ne_nil (Source.read_positive hr).1
    rw [List.length_append, List.length_append] at hge
    omega

end FirstAt

/-! ### Streams with given boundaries -/

theorem Reads.of_read_eq {n : ℕ} {s s' rest : Source} {d : Bytes} (h : Reads n s d rest) (hd : d ≠ [])
    (hread : ∀ m, s'.read m = s.read m) : Reads n s' d rest := by
  cases h with
  | done => exact absurd rfl hd
  | step hr h => exact .step ((hread n).trans hr) h

/-- Pieces of one byte are read one by one. -/
theorem reads_singletons {n : ℕ} (hn : 0 < n) (bytes : Bytes) (pieces : List Bytes) (ending : Ending) :
    ∃ rest, Reads n ⟨bytes.map ([·]) ++ pieces, ending⟩ bytes rest ∧
      ∀ m, rest.read m = Source.read m ⟨pieces, ending⟩ := by
  induction bytes with
  | nil => exact ⟨_, .done _, fun _ => rfl⟩
  | cons c bytes ih =>
    obtain ⟨rest, hreads, hrest⟩ := ih
    have hstep : Source.read n ⟨[c] :: (bytes.map ([·]) ++ pieces), ending⟩ =
        .positive [c] ⟨[] :: (bytes.map ([·]) ++ pieces), ending⟩ := by
      obtain ⟨k, rfl⟩ := Nat.exists_eq_succ_of_ne_zero hn.ne'
      rw [Source.read, if_neg (Nat.succ_ne_zero k), List.take_succ_cons, List.drop_succ_cons,
        List.take_nil, List.drop_nil]
    have hskip : ∀ m ps, Source.read m ⟨[] :: ps, ending⟩ = Source.read m ⟨ps, ending⟩ := by
      intro m ps
      rw [Source.read]
    rcases List.eq_nil_or_concat bytes with rfl | ⟨front, last, rfl⟩
    · refine ⟨_, .step hstep (.done _), fun m => ?_⟩
      exact hskip m pieces
    · exact ⟨rest, .step hstep (hreads.of_read_eq (by simp) fun m => hskip m _), hrest⟩

/-- **Every position up to `k`, and then `j`, can be the boundaries of a stream**, when one read brings
`j - k` bytes. -/
theorem exists_boundaries {n k j : ℕ} {bytes : Bytes} (hkj : k < j) (hj : j ≤ bytes.length)
    (hn : j ≤ k + n) : ∃ s : Source, s.bytes = bytes ∧ s.ending = .eof ∧
      (∀ q ≤ k, ∃ rest, FirstAt n s q (bytes.take q) rest) ∧
      ∃ rest, FirstAt n s (k + 1) (bytes.take j) rest := by
  have hpos : 0 < n := by omega
  set jump := (bytes.take j).drop k with hjump
  have hlen : jump.length = j - k := by
    rw [hjump, List.length_drop, List.length_take, min_eq_left hj]
  have hfront : bytes.take k ++ jump = bytes.take j := by
    have htake : bytes.take k = (bytes.take j).take k := by rw [List.take_take, min_eq_left hkj.le]
    rw [hjump, htake, List.take_append_drop]
  refine ⟨⟨(bytes.take k).map ([·]) ++ [jump, bytes.drop j], .eof⟩, ?_, rfl, ?_, ?_⟩
  · have hsingle : ((bytes.take k).map ([·])).flatten = bytes.take k := by
      rw [← List.flatMap_def]
      exact List.flatMap_singleton' _
    rw [Source.bytes, List.flatten_append, hsingle, List.flatten_cons, List.flatten_singleton,
      ← List.append_assoc, hfront, List.take_append_drop]
  · intro q hq
    -- the pieces up to `q` are single bytes as well
    have hsplit : (bytes.take k).map ([·]) = (bytes.take q).map ([·]) ++
        ((bytes.take k).drop q).map ([·]) := by
      have htake : bytes.take q = (bytes.take k).take q := by rw [List.take_take, min_eq_left hq]
      rw [← List.map_append, htake, List.take_append_drop]
    obtain ⟨rest, hreads, -⟩ := reads_singletons hpos (bytes.take q)
      (((bytes.take k).drop q).map ([·]) ++ [jump, bytes.drop j]) .eof
    rw [hsplit, List.append_assoc]
    have hlenq : (bytes.take q).length = q := by
      rw [List.length_take]
      omega
    exact ⟨rest, hreads, hlenq.ge, fun e mid _ hqe => by omega⟩
  · obtain ⟨rest, hreads, hrest⟩ := reads_singletons hpos (bytes.take k) [jump, bytes.drop j] .eof
    obtain ⟨c, cs, hcs⟩ := List.exists_cons_of_length_pos (l := jump) (by omega)
    have hread : rest.read n = .positive jump ⟨[jump.drop n, bytes.drop j], .eof⟩ := by
      rw [hrest, hcs, Source.read, if_neg hpos.ne', ← hcs, List.take_of_length_le (by omega)]
    have hall := hreads.trans (.step hread (.done _))
    rw [List.append_nil, hfront] at hall
    have hlenk : (bytes.take k).length = k := by
      rw [List.length_take]
      omega
    refine ⟨_, hall, ?_, ?_⟩
    · rw [List.length_take]
      omega
    · intro e mid he hke
      obtain ⟨e', rfl, he'⟩ := hreads.exists_append he (by omega)
      cases he' with
      | done =>
        rw [List.append_nil] at hke
        omega
      | step hr _ =>
        -- the read behind `k` brings the whole piece
        obtain ⟨rfl, -⟩ := ReadResult.positive.inj (hread.symm.trans hr)
        rw [← List.append_assoc, hfront, List.length_append]
        omega

end Segmented
