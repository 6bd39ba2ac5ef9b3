import AsterNet.Engine.Http1.Equiv.Fields

/-!
# The header phase

`readHead_spec` holds over every stream: when the header loops succeed, the sections, the bytes read
beyond them and the rest of the stream are the whole stream, and every read boundary passed before the
last one lies inside the sections.

`readHead_of_firstAt` says where a header loop ends: with the read that brings the end of the section.
`readHead_sections` is about well-formed sections: when each is completed by a read that stays within the
limit (`SectionsFit`), the loops take off exactly the interim sections and the final one; sections of at
most 60 KiB always are.
-/

namespace AsterNet

namespace Http1

open ByteString Segmented

/-! ### Every stream -/

/-- The header phase without the evidence for its termination. -/
theorem readHead_eq (sections : List Bytes) (httpStatus : ℤ) (raw : Bytes) (source : Source) :
    readHead sections httpStatus raw source =
      match find emptyLineMark (readHeaders raw source).1 with
      | none => .error ⟨httpStatus,
          stoppedByFailure headersPending (fun _ => bufSize) (readHeaders raw source)⟩
      | some headerEnd =>
        if kMaxResponseHeaders < (readHeaders raw source).1.length then .error ⟨httpStatus, false⟩
        else if (parseStatus (readHeaders raw source).1 httpStatus).tdiv 100 = 1 then
          readHead (sections ++ [(readHeaders raw source).1.take (headerEnd + 4)])
            (parseStatus (readHeaders raw source).1 httpStatus)
            ((readHeaders raw source).1.drop (headerEnd + 4)) (readHeaders raw source).2
        else .ok ⟨sections ++ [(readHeaders raw source).1.take (headerEnd + 4)],
          parseStatus (readHeaders raw source).1 httpStatus,
          (readHeaders raw source).1.take headerEnd,
          (readHeaders raw source).1.drop (headerEnd + 4), (readHeaders raw source).2⟩ := by
  rw [readHead]
  split
  rename_i raw' source' hr
  simp only [hr]
  split <;> rename_i hf <;> simp only [hf]

/-- What one header loop does to a stream. -/
structure LoopSpec (raw : Bytes) (source : Source) (read : Bytes × Source) : Prop where
  bytes : read.1 ++ read.2.bytes = raw ++ source.bytes
  ending : read.2.ending = source.ending
  reads : ∃ d, read.1 = raw ++ d ∧ Reads bufSize source d read.2
  /-- A boundary before the end of the loop lies before the end of the section it looks for. -/
  boundary : ∀ headerEnd, find emptyLineMark read.1 = some headerEnd →
    ∀ e rest, Reads bufSize source e rest → (raw ++ e).length < read.1.length →
      (raw ++ e).length < headerEnd + 4

theorem readHeaders_spec (raw : Bytes) (source : Source) :
    LoopSpec raw source (readHeaders raw source) := by
  obtain ⟨d, hd, hreads⟩ := reads_readWhile raw source
  have hd' : (readHeaders raw source).1 = raw ++ d := hd
  refine ⟨readWhile_bytes .., readWhile_ending .., ⟨d, hd, hreads⟩, ?_⟩
  intro headerEnd hf e rest hr hlt
  have hcond : headersPending (raw ++ e) = true := cond_of_reads hr hlt
  rw [headersPending, Bool.and_eq_true, Option.isNone_iff_eq_none] at hcond
  have hle : e.length ≤ d.length := by
    rw [hd', List.length_append, List.length_append] at hlt
    omega
  obtain ⟨e', rfl, -⟩ := hr.exists_append hreads hle
  have hpre : raw ++ e <+: (readHeaders raw source).1 := by
    rw [hd', ← List.append_assoc]
    exact List.prefix_append _ _
  -- a prefix that reaches the end of the section would already hold the mark
  by_contra hge
  have hsome := (find_isSome_prefix_iff hpre hf).mpr (not_lt.mp hge)
  rw [hcond.1] at hsome
  cases hsome

/-- What the header phase does to a stream when it succeeds. -/
structure HeadSpec (sections : List Bytes) (raw : Bytes) (source : Source) (head : Head) : Prop where
  bytes : head.sections.flatten ++ head.body ++ head.source.bytes =
    sections.flatten ++ raw ++ source.bytes
  ending : head.source.ending = source.ending
  last : head.sections.getLast? = some (head.headers ++ emptyLineMark)
  grows : sections.flatten.length ≤ head.sections.flatten.length
  reads : ∃ d, Reads bufSize source d head.source ∧
    sections.flatten ++ raw ++ d = head.sections.flatten ++ head.body
  boundary : ∀ e rest, Reads bufSize source e rest →
    (sections.flatten ++ raw ++ e).length < (head.sections.flatten ++ head.body).length →
    (sections.flatten ++ raw ++ e).length < head.sections.flatten.length

/-- A section taken off the buffer moves from the buffer to the sections. -/
theorem flatten_section (sections : List Bytes) (raw : Bytes) (k : ℕ) :
    (sections ++ [raw.take k]).flatten ++ raw.drop k = sections.flatten ++ raw := by
  rw [List.flatten_append, List.flatten_singleton, List.append_assoc, List.take_append_drop]

/-- The last loop: the section it found is the final one. -/
theorem HeadSpec.of_final {sections : List Bytes} {raw raw' : Bytes} {source source' : Source}
    {headerEnd : ℕ} {status : ℤ} (spec : LoopSpec raw source (raw', source'))
    (hf : find emptyLineMark raw' = some headerEnd) :
    HeadSpec sections raw source ⟨sections ++ [raw'.take (headerEnd + 4)], status,
      raw'.take headerEnd, raw'.drop (headerEnd + 4), source'⟩ := by
  obtain ⟨d, hd, hreads⟩ := spec.reads
  have hbytes : raw' ++ source'.bytes = raw ++ source.bytes := spec.bytes
  have hend := find_add_length_le hf
  constructor
  · rw [flatten_section, List.append_assoc, hbytes, List.append_assoc]
  · exact spec.ending
  -- the section ends with the empty line
  · have hmark : raw'.take (headerEnd + 4) = raw'.take headerEnd ++ emptyLineMark := by
      rw [List.take_add, List.append_cancel_left_eq]
      exact (List.prefix_iff_eq_take.mp (find_eq_some_iff.mp hf).2.1).symm
    rw [List.getLast?_append, List.getLast?_singleton, ← hmark]
    rfl
  · rw [List.flatten_append, List.length_append]
    omega
  · refine ⟨d, hreads, ?_⟩
    rw [flatten_section, List.append_assoc, ← hd]
  -- a boundary before the end of the section would have stopped the loop
  · intro e rest hr hlt
    rw [flatten_section] at hlt
    have hin : (raw ++ e).length < raw'.length := by
      simp only [List.length_append] at hlt ⊢
      omega
    have := spec.boundary headerEnd hf e rest hr hin
    rw [List.flatten_append, List.flatten_singleton]
    simp only [emptyLineMark, List.length_append, List.length_take, List.length_cons,
      List.length_nil] at *
    omega

/-- An interim section before the rest of the header phase. -/
theorem HeadSpec.of_interim {sections : List Bytes} {raw raw' : Bytes} {source source' : Source}
    {headerEnd : ℕ} {head : Head} (loop : LoopSpec raw source (raw', source'))
    (hf : find emptyLineMark raw' = some headerEnd)
    (spec : HeadSpec (sections ++ [raw'.take (headerEnd + 4)]) (raw'.drop (headerEnd + 4)) source'
      head) : HeadSpec sections raw source head := by
  obtain ⟨d, hd, hreads⟩ := loop.reads
  dsimp only at hd hreads
  have hbytes : raw' ++ source'.bytes = raw ++ source.bytes := loop.bytes
  have hend : headerEnd + 4 ≤ raw'.length := find_add_length_le hf
  -- the interim section is in front of what follows
  have hgrow : sections.flatten.length + (headerEnd + 4) ≤ head.sections.flatten.length := by
    have := spec.grows
    rw [List.flatten_append, List.flatten_singleton, List.length_append, List.length_take,
      min_eq_left hend] at this
    exact this
  constructor
  · rw [spec.bytes, flatten_section, List.append_assoc, hbytes, List.append_assoc]
  · exact spec.ending.trans loop.ending
  · exact spec.last
  · omega
  · obtain ⟨d', hd', he'⟩ := spec.reads
    refine ⟨d ++ d', hreads.trans hd', ?_⟩
    rw [← he', flatten_section, hd]
    simp only [List.append_assoc]
  · intro e rest hr hlt
    -- a boundary within the interim section
    rcases Nat.lt_or_ge (raw ++ e).length raw'.length with hin | hout
    · have := loop.boundary headerEnd hf e rest hr hin
      simp only [List.length_append] at *
      omega
    · -- the boundary belongs to the rest of the phase
      have hde : d.length ≤ e.length := by
        rw [hd, List.length_append, List.length_append] at hout
        omega
      obtain ⟨e', rfl, hr'⟩ := hreads.exists_append hr hde
      have hassoc : sections.flatten ++ raw ++ (d ++ e') =
          (sections ++ [raw'.take (headerEnd + 4)]).flatten ++ raw'.drop (headerEnd + 4) ++ e' := by
        rw [flatten_section, hd]
        simp only [List.append_assoc]
      rw [hassoc] at hlt ⊢
      exact spec.boundary e' rest hr' hlt

/-- Induction along the sections: what holds of the final one and is carried back over an interim one
holds of the header phase when it succeeds. -/
theorem readHead_induction {P : List Bytes → ℤ → Bytes → Source → Head → Prop}
    (hfinal : ∀ sections httpStatus raw source raw' source' headerEnd,
      LoopSpec raw source (raw', source') → find emptyLineMark raw' = some headerEnd →
      (parseStatus raw' httpStatus).tdiv 100 ≠ 1 →
      P sections httpStatus raw source ⟨sections ++ [raw'.take (headerEnd + 4)],
        parseStatus raw' httpStatus, raw'.take headerEnd, raw'.drop (headerEnd + 4), source'⟩)
    (hinterim : ∀ sections httpStatus raw source raw' source' headerEnd head,
      LoopSpec raw source (raw', source') → find emptyLineMark raw' = some headerEnd →
      (parseStatus raw' httpStatus).tdiv 100 = 1 →
      P (sections ++ [raw'.take (headerEnd + 4)]) (parseStatus raw' httpStatus)
        (raw'.drop (headerEnd + 4)) source' head →
      P sections httpStatus raw source head)
    {sections : List Bytes} {httpStatus : ℤ} {raw : Bytes} {source : Source} {head : Head}
    (h : readHead sections httpStatus raw source = .ok head) : P sections httpStatus raw source head := by
  -- the induction is on the bytes that are still to come
  induction hn : raw.length + source.bytes.length using Nat.strong_induction_on
    generalizing sections httpStatus raw source with
  | _ n ih =>
    have loop := readHeaders_spec raw source
    rw [readHead_eq] at h
    generalize readHeaders raw source = read at h loop
    obtain ⟨raw', source'⟩ := read
    dsimp only at h
    cases hf : find emptyLineMark raw' with
    | none =>
      rw [hf] at h
      cases h
    | some headerEnd =>
      rw [hf] at h
      dsimp only at h
      split_ifs at h with hlong hstatus
      · -- an interim section: what is left of the stream is shorter
        have hlt : (raw'.drop (headerEnd + 4)).length + source'.bytes.length < n := by
          have hend := find_add_length_le hf
          have hlen : (raw' ++ source'.bytes).length = _ := congrArg List.length loop.bytes
          simp only [emptyLineMark, List.length_append, List.length_cons, List.length_nil] at hend hlen
          rw [List.length_drop]
          omega
        exact hinterim _ _ _ _ _ _ _ _ loop hf hstatus (ih _ hlt h rfl)
      · obtain rfl := Except.ok.inj h
        exact hfinal _ _ _ _ _ _ _ loop hf hstatus

/-- **The header phase over every stream.** -/
theorem readHead_spec {sections : List Bytes} {httpStatus : ℤ} {raw : Bytes} {source : Source}
    {head : Head} (h : readHead sections httpStatus raw source = .ok head) :
    HeadSpec sections raw source head := by
  refine readHead_induction (P := fun sections _ raw source head => HeadSpec sections raw source head)
    ?_ ?_ h
  · intro sections httpStatus raw source raw' source' headerEnd loop hf _
    exact .of_final loop hf
  · intro sections httpStatus raw source raw' source' headerEnd head loop hf _ spec
    exact .of_interim loop hf spec

/-! ### Where a header loop ends -/

section

variable {sections : List Bytes} {httpStatus : ℤ} {raw d : Bytes} {source rest : Source}

/-- Without the end of a section the phase is refused. -/
theorem readHead_of_find_none (hf : find emptyLineMark (raw ++ source.bytes) = none) :
    ∃ readFailed, readHead sections httpStatus raw source = .error ⟨httpStatus, readFailed⟩ := by
  have hbytes := (readHeaders_spec raw source).bytes
  have hnone : find emptyLineMark (readHeaders raw source).1 = none := by
    cases hsome : find emptyLineMark (readHeaders raw source).1 with
    | none => rfl
    | some i =>
      have hall := find_append_of_eq_some hsome (readHeaders raw source).2.bytes
      rw [hbytes, hf] at hall
      cases hall
  rw [readHead_eq, hnone]
  exact ⟨_, rfl⟩

variable {headerEnd : ℕ}

/-- The loop goes on as long as the end of the section is not there. -/
theorem headersPending_of_lt (hf : find emptyLineMark (raw ++ source.bytes) = some headerEnd) {e : Bytes}
    {mid : Source} (he : Reads bufSize source e mid) (hlt : (raw ++ e).length < headerEnd + 4)
    (hle : (raw ++ e).length ≤ kMaxResponseHeaders) : headersPending (raw ++ e) = true := by
  have hpre : raw ++ e <+: raw ++ source.bytes := by
    rw [he.bytes_eq, ← List.append_assoc]
    exact List.prefix_append _ _
  have hmark := find_isSome_prefix_iff hpre hf
  rw [headersPending, Bool.and_eq_true, decide_eq_true_iff, ← Option.not_isSome, Bool.not_eq_true',
    ← Bool.not_eq_true, hmark]
  exact ⟨not_le.mpr hlt, hle⟩

/-- **The header loop ends with the read that brings the end of the section**, and is refused when that
read goes beyond `kMaxResponseHeaders`. -/
theorem readHead_of_firstAt (hf : find emptyLineMark (raw ++ source.bytes) = some headerEnd)
    (hfirst : FirstAt bufSize source (headerEnd + 4 - raw.length) d rest) :
    (kMaxResponseHeaders < (raw ++ d).length →
      ∃ readFailed, readHead sections httpStatus raw source = .error ⟨httpStatus, readFailed⟩) ∧
    ((raw ++ d).length ≤ kMaxResponseHeaders → readHead sections httpStatus raw source =
      if (parseStatus (raw ++ d) httpStatus).tdiv 100 = 1 then
        readHead (sections ++ [(raw ++ d).take (headerEnd + 4)]) (parseStatus (raw ++ d) httpStatus)
          ((raw ++ d).drop (headerEnd + 4)) rest
      else .ok ⟨sections ++ [(raw ++ d).take (headerEnd + 4)], parseStatus (raw ++ d) httpStatus,
        (raw ++ d).take headerEnd, (raw ++ d).drop (headerEnd + 4), rest⟩) := by
  have hle := hfirst.le
  have hpre : raw ++ d <+: raw ++ source.bytes := by
    rw [hfirst.reads.bytes_eq, ← List.append_assoc]
    exact List.prefix_append _ _
  -- the mark is found at the same place as in the whole stream
  have hmark : find emptyLineMark (raw ++ d) = some headerEnd := by
    obtain ⟨i, hi⟩ := Option.isSome_iff_exists.mp ((find_isSome_prefix_iff hpre hf).mpr (by
      rw [List.length_append, show emptyLineMark.length = 4 from rfl]
      omega))
    obtain ⟨t, ht⟩ := hpre
    have hall := find_append_of_eq_some hi t
    rw [ht, hf] at hall
    rw [hi, Option.some.inj hall]
  constructor
  · intro hlong
    obtain ⟨d', hd', hreads⟩ := (readHeaders_spec raw source).reads
    rw [readHead_eq]
    cases hfound : find emptyLineMark (readHeaders raw source).1 with
    | none => exact ⟨_, rfl⟩
    | some i =>
      -- the loop has passed the limit as well
      have hi : i = headerEnd := by
        have hall := find_append_of_eq_some hfound (readHeaders raw source).2.bytes
        rw [(readHeaders_spec raw source).bytes, hf] at hall
        exact (Option.some.inj hall).symm
      have hend : i + 4 ≤ (readHeaders raw source).1.length := find_add_length_le hfound
      have hge : d.length ≤ d'.length := by
        refine hfirst.first d' _ hreads ?_
        rw [hd', List.length_append] at hend
        omega
      dsimp only
      rw [if_pos (by rw [hd', List.length_append]; rw [List.length_append] at hlong; omega)]
      exact ⟨_, rfl⟩
  -- within the limit the loop ends with this read, and the section is judged
  · intro hfits
    have hread : readHeaders raw source = (raw ++ d, rest) := by
      refine readWhile_eq_of_reads hfirst.reads (fun e mid he hlt => ?_) (.inl ?_)
      · have hbefore := hfirst.lt_of_lt he hlt
        refine headersPending_of_lt hf he ?_ ?_
        · rw [List.length_append]
          omega
        · rw [List.length_append] at hfits ⊢
          omega
      · rw [headersPending, hmark]
        rfl
    rw [readHead_eq, hread]
    dsimp only
    rw [hmark]
    dsimp only
    rw [if_neg (not_lt.mpr hfits)]

end

/-! ### Well-formed sections -/

/-- A section of this length is read in every segmentation: one more read stays within
`kMaxResponseHeaders`. -/
def maxSection : ℕ := 60 * 1024

namespace Section

variable (σ : Section)

theorem find_bytes (t : Bytes) :
    find emptyLineMark (σ.bytes ++ t) = some σ.headers.length := by
  rw [bytes_eq]
  exact find_emptyLineMark_joinLines σ.lines_no_cr
    (fun l hl => σ.lines_ne l (List.mem_cons_of_mem _ hl)) t

theorem take_bytes (t : Bytes) : (σ.bytes ++ t).take (σ.headers.length + 4) = σ.bytes := by
  rw [← length_bytes, List.take_left]

theorem drop_bytes (t : Bytes) : (σ.bytes ++ t).drop (σ.headers.length + 4) = t := by
  rw [← length_bytes, List.drop_left]

theorem take_headers (t : Bytes) : (σ.bytes ++ t).take σ.headers.length = σ.headers := by
  rw [bytes_eq, List.append_assoc, List.take_left]

/-- The status is read from the status line, whatever follows the section. -/
theorem parseStatus_bytes (t : Bytes) (old : ℤ) : parseStatus (σ.bytes ++ t) old = σ.status := by
  -- what follows the section does not matter: `atoi` stops at the second blank
  obtain ⟨s, hs⟩ : ∃ s, σ.bytes ++ t = ascii "HTTP/1.1" ++ 32 :: (decimal σ.status ++ 32 :: s) := by
    refine ⟨σ.reason.bytes ++ crlf ++ ((σ.fields.map Field.text).flatMap (· ++ crlf) ++ crlf ++ t),
      ?_⟩
    rw [bytes, List.flatMap_cons, statusLine,
      show ascii "HTTP/1.1 " = ascii "HTTP/1.1" ++ [32] from by decide,
      show ascii " " = [32] from by decide]
    simp only [List.append_assoc, List.cons_append, List.nil_append]
  have hblank : (32 : UInt8) ∉ decimal σ.status := decimal_not_mem (by decide) _
  -- the status stands between the first two blanks
  have hsp1 : find [32] (σ.bytes ++ t) = some 8 := by
    have hversion : (32 : UInt8) ∉ ascii "HTTP/1.1" := by decide
    rw [hs, find_append_of_not_mem hversion, find, if_pos (by simp [List.isPrefixOf])]
    decide
  have hdrop : (σ.bytes ++ t).drop (8 + 1) = decimal σ.status ++ 32 :: s := by
    rw [hs, ← List.drop_drop]
    rfl
  have hsp2 : findFrom [32] (σ.bytes ++ t) (8 + 1) = some (8 + 1 + (decimal σ.status).length) := by
    rw [findFrom, hdrop, find_append_of_not_mem hblank, find,
      if_pos (by simp [List.isPrefixOf])]
    rfl
  -- `strtol` reads a C string, and the digits are not zero bytes
  have hcstr : cStr (decimal σ.status ++ 32 :: s) = decimal σ.status ++ 32 :: cStr s := by
    have hnul : ∀ c ∈ decimal σ.status, (c != 0) = true := by
      intro c hc
      rw [bne_iff_ne]
      rintro rfl
      exact decimal_not_mem (by decide) _ hc
    rw [cStr, List.takeWhile_append_of_pos hnul, List.takeWhile_cons, if_pos (by decide)]
    rfl
  have hsmall : digitsValue 10 (decimal σ.status) < 2 ^ 31 := by
    rw [digitsValue_decimal]
    have := σ.three_digits
    omega
  have hstops : StopsDigits 10 (32 :: cStr s) := by
    intro c hc
    rw [List.head?_cons, Option.mem_some_iff] at hc
    rw [← hc]
    decide
  rw [parseStatus, hsp1]
  dsimp only
  rw [hsp2]
  dsimp only
  rw [hdrop, hcstr,
    atoi_of_digits (decimal_ne_nil _) (decimal_allDigits _) hstops hsmall, digitsValue_decimal]

end Section

/-- `resp.http_status / 100 == 1`. -/
theorem tdiv_hundred_eq_one_iff (n : ℕ) : (n : ℤ).tdiv 100 = 1 ↔ 100 ≤ n ∧ n < 200 := by
  have hcast : (n : ℤ).tdiv 100 = ((n / 100 : ℕ) : ℤ) := (Int.ofNat_tdiv n 100).symm
  rw [hcast]
  omega

/-- **One section at the front of the stream**: the loop ends with the read that brings its end. -/
theorem readHead_section (σ : Section) (sections : List Bytes) (httpStatus : ℤ) {raw t d : Bytes}
    {source rest : Source} (hb : raw ++ source.bytes = σ.bytes ++ t)
    (hfirst : FirstAt bufSize source (σ.bytes.length - raw.length) d rest) :
    ∃ body, raw ++ d = σ.bytes ++ body ∧ body ++ rest.bytes = t ∧
      (kMaxResponseHeaders < (raw ++ d).length →
        ∃ readFailed, readHead sections httpStatus raw source = .error ⟨httpStatus, readFailed⟩) ∧
      ((raw ++ d).length ≤ kMaxResponseHeaders → readHead sections httpStatus raw source =
        if σ.status < 200 then readHead (sections ++ [σ.bytes]) σ.status body rest
        else .ok ⟨sections ++ [σ.bytes], σ.status, σ.headers, body, rest⟩) := by
  have hbytes : (raw ++ d) ++ rest.bytes = σ.bytes ++ t := by
    rw [← hb, hfirst.reads.bytes_eq, List.append_assoc]
  have hge : σ.bytes.length ≤ (raw ++ d).length := by
    have := hfirst.le
    rw [List.length_append]
    omega
  -- the read has brought the whole section
  obtain ⟨body, hbody⟩ : σ.bytes <+: raw ++ d :=
    List.prefix_of_prefix_length_le (List.prefix_append _ t) ⟨_, hbytes⟩ hge
  refine ⟨body, hbody.symm, ?_, ?_⟩
  · rw [← hbody, List.append_assoc] at hbytes
    exact List.append_cancel_left hbytes
  have hf : find emptyLineMark (raw ++ source.bytes) = some σ.headers.length := by
    rw [hb, σ.find_bytes]
  rw [σ.length_bytes] at hfirst
  obtain ⟨hlong, hfits⟩ := @readHead_of_firstAt sections httpStatus raw d source rest _ hf hfirst
  -- an interim status is one in the hundreds
  refine ⟨hlong, fun hle => ?_⟩
  rw [hfits hle, ← hbody, σ.parseStatus_bytes, σ.take_bytes, σ.drop_bytes, σ.take_headers]
  have hdigits := σ.three_digits.1
  by_cases hstatus : σ.status < 200
  · rw [if_pos hstatus, if_pos ((tdiv_hundred_eq_one_iff _).mpr ⟨hdigits, hstatus⟩)]
  · rw [if_neg hstatus, if_neg fun h => hstatus ((tdiv_hundred_eq_one_iff _).mp h).2]

/-- Each section is completed by a read that ends within `kMaxResponseHeaders` bytes of its beginning;
the first section begins behind `start` bytes of the stream. -/
def SectionsFit (source : Source) : ℕ → List Section → Prop
  | _, [] => True
  | start, σ :: later =>
    (∃ d rest, Reads bufSize source d rest ∧ start + σ.bytes.length ≤ d.length ∧
      d.length ≤ start + kMaxResponseHeaders) ∧
    SectionsFit source (start + σ.bytes.length) later

/-- Short sections fit in every segmentation: one more read stays within `kMaxResponseHeaders`. -/
theorem sectionsFit_of_le {source : Source} {start : ℕ} {all : List Section}
    (hsize : ∀ σ ∈ all, σ.bytes.length ≤ maxSection)
    (hlong : start + (all.flatMap Section.bytes).length ≤ source.bytes.length) :
    SectionsFit source start all := by
  induction all generalizing start with
  | nil => trivial
  | cons σ all ih =>
    rw [List.flatMap_cons, List.length_append] at hlong
    have hσ := hsize σ (List.mem_cons_self ..)
    constructor
    · obtain ⟨d, rest, hfirst, hlt⟩ := FirstAt.exists_of_le (n := bufSize) (s := source)
        (k := start + σ.bytes.length) (by decide) (by omega)
      refine ⟨d, rest, hfirst.reads, hfirst.le, ?_⟩
      simp only [maxSection, bufSize, kMaxResponseHeaders] at *
      omega
    · exact ih (fun τ hτ => hsize τ (List.mem_cons_of_mem _ hτ)) (by omega)

/-- The read that brings the end of the section is within the limit when any read is. -/
theorem length_le_iff_of_firstAt {source mid rest : Source} {d₀ raw d : Bytes} {start k : ℕ}
    (hreads : Reads bufSize source d₀ mid) (hstart : d₀.length = start + raw.length)
    (hraw : raw.length ≤ kMaxResponseHeaders) (hfirst : FirstAt bufSize mid (k - raw.length) d rest) :
    (raw ++ d).length ≤ kMaxResponseHeaders ↔ ∃ e rest', Reads bufSize source e rest' ∧
      start + k ≤ e.length ∧ e.length ≤ start + kMaxResponseHeaders := by
  have hle := hfirst.le
  rw [List.length_append]
  constructor
  · intro hfits
    refine ⟨d₀ ++ d, rest, hreads.trans hfirst.reads, ?_, ?_⟩
    · rw [List.length_append]
      omega
    · rw [List.length_append]
      omega
  · rintro ⟨e, rest', he, hk, hlimit⟩
    rcases Nat.lt_or_ge e.length d₀.length with hlt | hge
    · -- the end was there before
      have hnow := hfirst.first [] mid (.done mid) (by rw [List.length_nil]; omega)
      rw [List.length_nil] at hnow
      omega
    · obtain ⟨e', rfl, he'⟩ := hreads.exists_append he hge
      rw [List.length_append] at hk hlimit
      have hnow := hfirst.first e' rest' he' (by omega)
      omega

/-- **The header phase over well-formed sections.**  When they fit, it takes off the interim sections
and the final one; what was read beyond them is the front of what follows. -/
theorem readHead_sections {interim : List Section} {final : Section} (sections : List Bytes)
    (httpStatus : ℤ) {raw t d₀ : Bytes} {source mid : Source} {start : ℕ}
    (hinterim : ∀ σ ∈ interim, σ.status < 200) (hfinal : 200 ≤ final.status)
    (hreads : Reads bufSize source d₀ mid) (hstart : d₀.length = start + raw.length)
    (hraw : raw.length ≤ kMaxResponseHeaders)
    (hb : raw ++ mid.bytes = (interim ++ [final]).flatMap Section.bytes ++ t) :
    (SectionsFit source start (interim ++ [final]) → ∃ body source', body ++ source'.bytes = t ∧
      readHead sections httpStatus raw mid =
        .ok ⟨sections ++ (interim ++ [final]).map Section.bytes, final.status, final.headers, body,
          source'⟩) ∧
    (¬ SectionsFit source start (interim ++ [final]) →
      ∃ failure, readHead sections httpStatus raw mid = .error failure) := by
  -- the induction is on the interim sections; the final one ends it
  induction interim generalizing sections httpStatus raw d₀ mid start with
  | nil =>
    rw [List.nil_append, List.flatMap_singleton] at hb
    have hlong : final.bytes.length - raw.length ≤ mid.bytes.length := by
      have := congrArg List.length hb
      rw [List.length_append, List.length_append] at this
      omega
    obtain ⟨d, rest, hfirst, -⟩ := FirstAt.exists_of_le (n := bufSize) (by decide) hlong
    obtain ⟨body, -, ht, hlongRead, hfitsRead⟩ := readHead_section final sections httpStatus hb hfirst
    have hiff := length_le_iff_of_firstAt hreads hstart hraw hfirst
    rw [if_neg (by omega)] at hfitsRead
    constructor
    · intro hfit
      exact ⟨body, rest, ht, hfitsRead (hiff.mpr hfit.1)⟩
    · intro hnot
      obtain ⟨readFailed, herror⟩ := hlongRead (not_le.mp fun hle => hnot ⟨hiff.mp hle, trivial⟩)
      exact ⟨_, herror⟩
  | cons σ interim ih =>
    rw [List.cons_append, List.flatMap_cons, List.append_assoc] at hb
    have hσ := hinterim σ (List.mem_cons_self ..)
    have hlong : σ.bytes.length - raw.length ≤ mid.bytes.length := by
      have := congrArg List.length hb
      rw [List.length_append, List.length_append] at this
      omega
    obtain ⟨d, rest, hfirst, -⟩ := FirstAt.exists_of_le (n := bufSize) (by decide) hlong
    obtain ⟨body, hbody, ht, hlongRead, hfitsRead⟩ := readHead_section σ sections httpStatus hb hfirst
    have hiff := length_le_iff_of_firstAt hreads hstart hraw hfirst
    rw [if_pos hσ] at hfitsRead
    have hlengths := congrArg List.length hbody
    rw [List.length_append, List.length_append] at hlengths
    -- the section fits or the header phase fails
    by_cases hle : (raw ++ d).length ≤ kMaxResponseHeaders
    · rw [hfitsRead hle]
      have hbehind : (d₀ ++ d).length = start + σ.bytes.length + body.length := by
        rw [List.length_append]
        omega
      obtain ⟨hok, herror⟩ := ih (sections ++ [σ.bytes]) σ.status
        (fun τ hτ => hinterim τ (List.mem_cons_of_mem _ hτ)) (hreads.trans hfirst.reads) hbehind
        (by rw [List.length_append] at hle; omega) ht
      constructor
      · intro hfit
        obtain ⟨body', source', ht', hread'⟩ := hok hfit.2
        refine ⟨body', source', ht', ?_⟩
        rw [hread']
        simp only [List.append_assoc, List.cons_append, List.nil_append, List.map_cons]
      · intro hnot
        exact herror fun hfit => hnot ⟨hiff.mp hle, hfit⟩
    · constructor
      · intro hfit
        exact absurd (hiff.mpr hfit.1) hle
      · intro _
        obtain ⟨readFailed, herror⟩ := hlongRead (not_le.mp hle)
        exact ⟨_, herror⟩

end Http1

end AsterNet
