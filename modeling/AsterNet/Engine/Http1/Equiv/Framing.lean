import AsterNet.Engine.Http1.Equiv.Complete
import AsterNet.Engine.Http1.Equiv.SizeLines

/-!
# How a body is framed

`prescribed` is the decision the message rules come to over the fields of a section: a `Content-Length` is
digits of a number below 2⁶⁴ and all of them denote the same, and the body is chunked if `chunked` is the
last coding listed.  `decided` is what the scan comes to, and `readResponse_of_head` says that this is all
the rest of the request looks at.

The scan takes more for a length than digits: what `strtoull` and blanks behind it make up (`Spells`,
`parseLength_eq_some_iff`), a length of `npos` for none, and each coding with `chunked` in its name for
`chunked` (`scanned_foldl`).  `PlainlyFramed` are the sections on which both decisions are one.
-/

namespace AsterNet

namespace Http1

open ByteString Segmented

/-! ### The rules -/

/-- The values in the lines that are fields of a name. -/
def valuesIn (name : String) (lines : List Bytes) : List Bytes :=
  ((lines.filterMap parseField).filter fun field => field.1 = ascii name).map Prod.snd

/-- The values of the fields of a name. -/
def valuesOf (name : String) (headers : Bytes) : List Bytes := valuesIn name (headerLines headers)

/-- The length a `Content-Length` says: one or more digits of a number below 2⁶⁴. -/
def lengthOf (value : Bytes) : Option ℕ :=
  if value ≠ [] ∧ AllDigits 10 value ∧ digitsValue 10 value ≤ ullongMax then some (digitsValue 10 value)
  else none

/-- The elements of a comma-separated list, in lower case. -/
def elementsOf (value : Bytes) : List Bytes :=
  ((value.splitOn 44).map fun piece => lower (trimBlanks piece)).filter fun element => element ≠ []

/-- The transfer codings listed, in order. -/
def codingsOf (headers : Bytes) : List Bytes := (valuesOf "transfer-encoding" headers).flatMap elementsOf

/-- `chunked` is the last of them. -/
def lastCodingChunked (headers : Bytes) : Bool := (codingsOf headers).getLast? == some (ascii "chunked")

/-- What becomes of a section's framing fields. -/
inductive Decision
  | refused
  | framed (chunked : Bool) (contentLength : Option ℕ)
  deriving DecidableEq, Repr

/-- The decision of the rules. -/
def prescribed (headers : Bytes) : Decision :=
  match (valuesOf "content-length" headers).map lengthOf with
  | [] => .framed (lastCodingChunked headers) none
  | none :: _ => .refused
  | some n :: lengths =>
    if ∀ length ∈ lengths, length = some n then .framed (lastCodingChunked headers) (some n) else .refused

/-! ### The request -/

/-- The decision of the scan. -/
def decided (scan : Scan) : Decision :=
  if scan.invalid then .refused
  else .framed scan.chunked (if scan.cl = npos then none else some scan.cl)

/-- The body in a framing that was decided. -/
def readFramed (req : Request) (head : Head) (chunked : Bool) (contentLength : Option ℕ) :
    Except BodyFailure Body :=
  let maxBody := req.maxResponseBodyBytes.toNat
  if noBodyStatus req head.httpStatus then takeNoBody head.body head.source
  else if chunked then readChunked maxBody head.body head.source
  else match contentLength with
    | some cl => readLength maxBody cl head.body head.source
    | none => readToEnd maxBody head.body head.source

/-- The rest of the request under a decision. -/
def answer (req : Request) (head : Head) (close : Bool) : Decision → Reply × Option Source
  | .refused =>
    ({ errCode := .errProtocol, failureStage := "header", httpStatus := head.httpStatus }, none)
  | .framed chunked contentLength =>
    match readFramed req head chunked contentLength with
    | .error failure =>
      ({ errCode := failure.errCode, failureStage := "body", httpStatus := head.httpStatus,
         readFailed := failure.readFailed }, none)
    | .ok body =>
      if req.maxResponseBodyBytes.toNat < body.body.length then
        ({ errCode := .errBufferTooSmall, failureStage := "body", httpStatus := head.httpStatus,
           body := body.body, readFailed := body.readFailed }, none)
      else
        ({ errCode := .ok, httpStatus := head.httpStatus, body := body.body,
           sections := head.sections, message := body.message, readFailed := body.readFailed },
          if !(close || noBodyStatus req head.httpStatus || (!chunked && contentLength.isNone)) then
            some body.source
          else none)

/-- **The request goes by the decision of the scan.** -/
theorem readResponse_of_head {req : Request} {source : Source} {head : Head}
    (hhead : readHead [] 0 [] source = .ok head) :
    readResponse req source = answer req head (scanHeaders head.headers).connectionClose
      (decided (scanHeaders head.headers)) := by
  unfold readResponse
  rw [hhead]
  dsimp only
  set scan := scanHeaders head.headers
  -- an invalid scan is refused before the body is looked at
  by_cases hinvalid : scan.invalid = true
  · rw [if_pos hinvalid, decided, if_pos hinvalid]
    rfl
  rw [if_neg hinvalid, decided, if_neg hinvalid]
  -- `npos` stands for an absent length
  have hbody : readBody req head scan =
      readFramed req head scan.chunked (if scan.cl = npos then none else some scan.cl) := by
    unfold readBody readFramed
    by_cases hcl : scan.cl = npos
    · simp only [hcl, ne_eq, not_true_eq_false, if_false, if_true]
    · simp only [hcl, ne_eq, not_false_eq_true, if_false, if_true]
  have hkeeps : keepsConnection req head scan = !(scan.connectionClose ||
      noBodyStatus req head.httpStatus ||
      (!scan.chunked && (if scan.cl = npos then none else some scan.cl).isNone)) := by
    unfold keepsConnection
    by_cases hcl : scan.cl = npos
    · simp [hcl]
    · simp [hcl]
  unfold answer
  dsimp only
  rewrite [hbody, hkeeps]
  rfl

/-! ### The lengths the scan takes -/

/-- A text that `strtoull` and blanks behind the number make up: a number of its grammar, or nothing at
all, before the end of the C string. -/
def Spells (value : Bytes) (n : ℕ) : Prop :=
  value ≠ [] ∧ ∃ front blanks rest, value = front ++ (blanks ++ rest) ∧
    (∀ c ∈ blanks, isBlank c = true) ∧ (∀ c ∈ rest.head?, c = 0) ∧
    (front = [] ∧ n = 0 ∨ ∃ w : Spelling 10, w.bytes = front ∧ w.magnitude ≤ ullongMax ∧ w.value = n)

theorem cStr_append_of_head {front rest : Bytes} (hfront : (0 : UInt8) ∉ front)
    (hrest : ∀ c ∈ rest.head?, c = 0) : cStr (front ++ rest) = front := by
  apply Spelling.takeWhile_append_of_head
  · intro c hc
    simpa using ne_of_mem_of_not_mem hc hfront
  · intro c hc
    simpa using hrest c hc

theorem isSpace_of_isBlank : ∀ c : UInt8, isBlank c = true → isSpace c = true := by decide +kernel

theorem digitVal_of_isBlank : ∀ c : UInt8, isBlank c = true →
    digitVal 10 c = none ∧ toLower c ≠ 120 ∧ c ≠ 0 := by
  decide +kernel

/-- Blanks alone are no number, and are read as zero. -/
theorem strtoull_blanks {blanks : Bytes} (hblanks : ∀ c ∈ blanks, isBlank c = true) :
    strtoull 10 blanks = ⟨0, 0, false⟩ := by
  have htake : blanks.takeWhile isSpace = blanks := by
    apply List.takeWhile_eq_self_iff.mpr
    exact fun c hc => isSpace_of_isBlank c (hblanks c hc)
  unfold strtoull
  simp [htake, signOf, hasHexPrefix, digitRun]

/-- **The texts the scan takes for a length.** -/
theorem parseLength_eq_some_iff {value : Bytes} {n : ℕ} : parseLength value = some n ↔ Spells value n := by
  constructor
  -- `strtoull` reads the C string, and only blanks may follow the number
  · intro h
    unfold parseLength at h
    dsimp only at h
    split_ifs at h with hread
    rw [not_or, not_or, not_not] at hread
    obtain ⟨hne, hrange, hblanks⟩ := hread
    obtain ⟨rest, hvalue, hrest⟩ := exists_cStr value
    have hall : ∀ c ∈ (cStr value).drop (strtoull 10 (cStr value)).stop, isBlank c = true :=
      List.dropWhile_eq_nil_iff.mp hblanks
    by_cases hstop : (strtoull 10 (cStr value)).stop = 0
    · -- nothing was read
      rw [hstop, List.drop_zero] at hall
      rw [strtoull_blanks hall] at h
      exact ⟨hne, [], cStr value, rest, hvalue, hall, hrest, .inl ⟨rfl, (Option.some.inj h).symm⟩⟩
    · obtain ⟨w, tail, hcstr, htail, hle⟩ := exists_spelling hstop (by simpa using hrange) fun c hc =>
        (digitVal_of_isBlank c (hall c (List.mem_of_mem_head? hc))).2.1
      have hread := w.strtoull_append (.inl rfl) htail hle
      rw [hcstr, hread, List.drop_left] at hall
      rw [hcstr, hread] at h
      refine ⟨hne, w.bytes, tail, rest, ?_, hall, hrest, .inr ⟨w, rfl, hle, Option.some.inj h⟩⟩
      rw [← List.append_assoc, ← hcstr]
      exact hvalue
  · rintro ⟨hne, front, blanks, rest, rfl, hblanks, hrest, hfront⟩
    have hzero : (0 : UInt8) ∉ front ++ blanks := by
      intro hmem
      rcases List.mem_append.mp hmem with h | h
      · rcases hfront with ⟨rfl, -⟩ | ⟨w, rfl, -⟩
        · cases h
        · exact w.notMem_zero (.inl rfl) h
      · exact (digitVal_of_isBlank 0 (hblanks 0 h)).2.2 rfl
    -- the number ends where the blanks begin
    have hcstr : cStr (front ++ (blanks ++ rest)) = front ++ blanks := by
      rw [← List.append_assoc]
      exact cStr_append_of_head hzero hrest
    have hdrop : blanks.dropWhile isBlank = [] := List.dropWhile_eq_nil_iff.mpr hblanks
    have hends : Spelling.Ends 10 blanks :=
      ⟨fun c hc => (digitVal_of_isBlank c (hblanks c (List.mem_of_mem_head? hc))).1,
        fun c hc => (digitVal_of_isBlank c (hblanks c (List.mem_of_mem_head? hc))).2.1⟩
    unfold parseLength
    rcases hfront with ⟨rfl, rfl⟩ | ⟨w, rfl, hle, rfl⟩
    · rw [List.nil_append, List.nil_append] at hcstr
      simp only [hcstr, List.nil_append, strtoull_blanks hblanks, List.drop_zero, hdrop]
      simpa using hne
    · simp only [hcstr, w.strtoull_append (.inl rfl) hends hle, List.drop_left, hdrop]
      simpa using hne

/-- A length is taken as what it is. -/
theorem spells_of_lengthOf {value : Bytes} {n : ℕ} (h : lengthOf value = some n) : Spells value n := by
  unfold lengthOf at h
  split_ifs at h with hlength
  obtain ⟨hne, hall, hle⟩ := hlength
  refine ⟨hne, value, [], [], by simp, by simp, by simp, .inr ⟨⟨[], [], [], value, by simp, .inl rfl,
    .inl rfl, hne, hall⟩, rfl, hle, ?_⟩⟩
  exact Option.some.inj h

/-- A text is taken for one number. -/
theorem Spells.unique {value : Bytes} {n n' : ℕ} (h : Spells value n) (h' : Spells value n') : n = n' :=
  Option.some.inj ((parseLength_eq_some_iff.mpr h).symm.trans (parseLength_eq_some_iff.mpr h'))

/-! ### The scan -/

/-- The values that the scan takes one after the other: each is a number to it, and none is followed by
another one.  A value of `npos` does not count as one that was there before. -/
structure Taken (values : List Bytes) : Prop where
  spelled : ∀ value ∈ values, ∃ n, Spells value n
  agree : values.Pairwise fun value value' =>
    ∀ n n', Spells value n → Spells value' n' → n = npos ∨ n = n'

namespace Taken

theorem nil : Taken [] := ⟨by simp, List.Pairwise.nil⟩

theorem concat_iff {values : List Bytes} {value : Bytes} : Taken (values ++ [value]) ↔
    Taken values ∧ (∃ n, Spells value n) ∧
      ∀ value' ∈ values, ∀ n' n, Spells value' n' → Spells value n → n' = npos ∨ n' = n := by
  constructor
  · rintro ⟨hspelled, hagree⟩
    obtain ⟨hbefore, -, hlast⟩ := List.pairwise_append.mp hagree
    refine ⟨⟨fun value' h => hspelled value' (List.mem_append_left _ h), hbefore⟩,
      hspelled value (by simp), fun value' h => hlast value' h value (by simp)⟩
  · rintro ⟨hbefore, hspelled, hlast⟩
    constructor
    · intro value' h
      rcases List.mem_append.mp h with h | h
      · exact hbefore.spelled value' h
      · rwa [List.mem_singleton.mp h]
    · refine List.pairwise_append.mpr ⟨hbefore.agree, List.pairwise_singleton _ _, ?_⟩
      intro value' h value'' h'
      rw [List.mem_singleton.mp h']
      exact hlast value' h

/-- All values but `npos` are the last one. -/
theorem eq_last {values : List Bytes} {last value : Bytes} {m n : ℕ} (h : Taken values)
    (hlast : values.getLast? = some last) (hm : Spells last m) (hmem : value ∈ values)
    (hn : Spells value n) : n = npos ∨ n = m := by
  obtain ⟨before, rfl⟩ := List.getLast?_eq_some_iff.mp hlast
  obtain ⟨-, -, hagree⟩ := concat_iff.mp h
  rcases List.mem_append.mp hmem with hbefore | hsame
  · exact hagree value hbefore n m hn hm
  · rw [List.mem_singleton.mp hsame] at hn
    exact .inr (hn.unique hm)

end Taken

/-- A transfer coding whose name holds `chunked`. -/
def mentionsChunked (headers : Bytes) : Bool :=
  (valuesOf "transfer-encoding" headers).any fun value => contains (ascii "chunked") (lower value)

/-- What the scan of lines with these lengths and codings finds. -/
structure Scanned (lengths codings : List Bytes) (scan : Scan) : Prop where
  chunked_eq : scan.chunked = codings.any fun value => contains (ascii "chunked") (lower value)
  invalid_iff : scan.invalid = false ↔ Taken lengths
  cl_none : lengths = [] → scan.cl = npos
  cl_last : ∀ value, Taken lengths → lengths.getLast? = some value → Spells value scan.cl

theorem valuesIn_concat_of_none {name : String} {lines : List Bytes} {line : Bytes}
    (h : parseField line = none) : valuesIn name (lines ++ [line]) = valuesIn name lines := by
  simp [valuesIn, List.filterMap_append, h]

theorem valuesIn_concat_of_some {name : String} {lines : List Bytes} {line : Bytes}
    {field : Bytes × Bytes} (h : parseField line = some field) : valuesIn name (lines ++ [line]) =
      valuesIn name lines ++ if field.1 = ascii name then [field.2] else [] := by
  by_cases hname : field.1 = ascii name
  · simp [valuesIn, List.filterMap_append, h, hname]
  · simp [valuesIn, List.filterMap_append, h, hname]

namespace Scanned

variable {lengths codings : List Bytes} {scan : Scan}

/-- A transfer coding comes next. -/
theorem coding (h : Scanned lengths codings scan) (value : Bytes) :
    Scanned lengths (codings ++ [value])
      (if contains (ascii "chunked") (lower value) = true then { scan with chunked := true }
        else scan) := by
  split_ifs with hchunked
  · exact ⟨by simp [hchunked], h.invalid_iff, h.cl_none, h.cl_last⟩
  · refine ⟨?_, h.invalid_iff, h.cl_none, h.cl_last⟩
    rw [h.chunked_eq]
    simp [hchunked]

/-- A length comes next. -/
theorem length (h : Scanned lengths codings scan) (value : Bytes) :
    Scanned (lengths ++ [value]) codings
      (match parseLength value with
        | none => { scan with invalid := true }
        | some parsed =>
          if scan.cl ≠ npos ∧ scan.cl ≠ parsed then { scan with invalid := true }
          else { scan with cl := parsed }) := by
  have hne : lengths ++ [value] ≠ [] := by simp
  -- a value that is refused is not taken
  have hrefused : ¬ Taken (lengths ++ [value]) →
      Scanned (lengths ++ [value]) codings { scan with invalid := true } := by
    intro hnot
    refine ⟨h.chunked_eq, ?_, fun hnil => absurd hnil hne, fun _ ht => absurd ht hnot⟩
    simp [hnot]
  cases hparse : parseLength value with
  | none =>
    apply hrefused
    intro ht
    obtain ⟨-, ⟨n, hn⟩, -⟩ := Taken.concat_iff.mp ht
    rw [parseLength_eq_some_iff.mpr hn] at hparse
    cases hparse
  | some parsed =>
    have hspells : Spells value parsed := parseLength_eq_some_iff.mp hparse
    dsimp only
    split_ifs with hconflict
    · apply hrefused
      intro ht
      obtain ⟨hbefore, -, hagree⟩ := Taken.concat_iff.mp ht
      -- a conflict with the last length that was taken
      cases hlast : lengths.getLast? with
      | none => exact hconflict.1 (h.cl_none (List.getLast?_eq_none_iff.mp hlast))
      | some last =>
        have hcl := h.cl_last last hbefore hlast
        rcases hagree last (List.mem_of_getLast? hlast) _ _ hcl hspells with hnpos | hsame
        · exact hconflict.1 hnpos
        · exact hconflict.2 hsame
    -- without a conflict all the lengths seen so far agree
    · have htaken : Taken lengths → Taken (lengths ++ [value]) := by
        intro hbefore
        refine Taken.concat_iff.mpr ⟨hbefore, ⟨parsed, hspells⟩, ?_⟩
        intro value' hmem n' n hn' hn
        obtain rfl := hn.unique hspells
        obtain ⟨last, hlast⟩ :=
          Option.isSome_iff_exists.mp (List.getLast?_isSome.mpr (List.ne_nil_of_mem hmem))
        have hcl := h.cl_last last hbefore hlast
        rcases hbefore.eq_last hlast hcl hmem hn' with hnpos | hsame
        · exact .inl hnpos
        · by_contra hnot
          rw [not_or, hsame] at hnot
          exact hconflict hnot
      refine ⟨h.chunked_eq, ?_, fun hnil => absurd hnil hne, ?_⟩
      · rw [h.invalid_iff]
        exact ⟨htaken, fun ht => (Taken.concat_iff.mp ht).1⟩
      · intro last _ hlast
        rw [List.getLast?_concat] at hlast
        obtain rfl := Option.some.inj hlast
        exact hspells

end Scanned

/-- The names the scan looks for are three. -/
theorem ascii_names : ascii "transfer-encoding" ≠ ascii "connection" ∧
    ascii "transfer-encoding" ≠ ascii "content-length" ∧ ascii "connection" ≠ ascii "content-length" := by
  decide

/-- **What the scan finds.** -/
theorem scanned_foldl (lines : List Bytes) :
    Scanned (valuesIn "content-length" lines) (valuesIn "transfer-encoding" lines)
      (lines.foldl scanLine {}) := by
  -- the scan goes through the lines in their order: induction from the back
  induction lines using List.reverseRecOn with
  | nil => exact ⟨rfl, by simpa [valuesIn] using Taken.nil, fun _ => rfl, by simp [valuesIn]⟩
  | append_singleton lines line ih =>
    rw [List.foldl_append, List.foldl_cons, List.foldl_nil]
    set scan := lines.foldl scanLine {}
    unfold scanLine
    cases hfield : parseField line with
    | none =>
      rw [valuesIn_concat_of_none hfield, valuesIn_concat_of_none hfield]
      exact ih
    | some field =>
      obtain ⟨name, value⟩ := field
      obtain ⟨hcoding_connection, hcoding_length, hconnection_length⟩ := ascii_names
      rw [valuesIn_concat_of_some hfield, valuesIn_concat_of_some hfield]
      dsimp only
      -- one of the three names, or none of them
      by_cases hcoding : name = ascii "transfer-encoding"
      · have hconnection : name ≠ ascii "connection" := hcoding ▸ hcoding_connection
        have hlength : name ≠ ascii "content-length" := hcoding ▸ hcoding_length
        rw [if_neg hlength, if_pos hcoding, List.append_nil]
        simpa [hcoding, hcoding_connection, hcoding_length] using ih.coding value
      by_cases hlength : name = ascii "content-length"
      · have hconnection : name ≠ ascii "connection" := hlength ▸ hconnection_length.symm
        rw [if_pos hlength, if_neg hcoding, List.append_nil, if_neg (fun h => hcoding h.1),
          if_neg (fun h => hconnection h.1), if_pos hlength]
        exact ih.length value
      · rw [if_neg hlength, if_neg hcoding, List.append_nil, List.append_nil,
          if_neg (fun h => hcoding h.1), if_neg hlength]
        split_ifs with hclose
        · exact ⟨ih.chunked_eq, ih.invalid_iff, ih.cl_none, ih.cl_last⟩
        · exact ih

/-! ### The coding listed last -/

theorem mem_intersperse_of_mem {α : Type*} {a sep : α} {l : List α} (h : a ∈ l) :
    a ∈ l.intersperse sep := by
  induction l with
  | nil => cases h
  | cons b l ih =>
    cases l with
    | nil => simpa using h
    | cons c l =>
      rw [List.intersperse_cons_cons]
      rcases List.mem_cons.mp h with rfl | hmem
      · exact List.mem_cons_self
      · exact List.mem_cons_of_mem _ (List.mem_cons_of_mem _ (ih hmem))

/-- The elements stand in the list. -/
theorem infix_of_mem_splitOn {value piece : Bytes} {sep : UInt8} (h : piece ∈ value.splitOn sep) :
    piece <:+: value := by
  have hinfix : piece <:+: [sep].intercalate (value.splitOn sep) :=
    List.infix_of_mem_flatten (mem_intersperse_of_mem h)
  rwa [List.intercalate_splitOn] at hinfix

/-- A value that lists `chunked` has it as a part. -/
theorem contains_of_mem_elementsOf {value : Bytes} (h : ascii "chunked" ∈ elementsOf value) :
    contains (ascii "chunked") (lower value) = true := by
  obtain ⟨hmem, -⟩ := List.mem_filter.mp h
  obtain ⟨piece, hpiece, heq⟩ := List.mem_map.mp hmem
  have htrimmed : ascii "chunked" <:+: trimBlanks (lower piece) := by
    rw [← lower_trimBlanks, heq]
  have hlower : ascii "chunked" <:+: lower piece :=
    (infix_trimBlanks_iff (by decide) (by decide +kernel)).mp htrimmed
  apply contains_iff_infix.mpr
  exact hlower.trans ((infix_of_mem_splitOn hpiece).map toLower)

/-- The scan overlooks no body that is chunked. -/
theorem mentionsChunked_of_last {headers : Bytes} (h : lastCodingChunked headers = true) :
    mentionsChunked headers = true := by
  unfold lastCodingChunked at h
  obtain ⟨value, hvalue, helement⟩ := List.mem_flatMap.mp (List.mem_of_getLast? (beq_iff_eq.mp h))
  exact List.any_eq_true.mpr ⟨value, hvalue, contains_of_mem_elementsOf helement⟩

/-! ### Both decisions -/

/-- The lengths of a section that the rules do not refuse. -/
theorem prescribed_eq_framed_iff {headers : Bytes} {chunked : Bool} {contentLength : Option ℕ} :
    prescribed headers = .framed chunked contentLength ↔ lastCodingChunked headers = chunked ∧
      (contentLength = none ↔ valuesOf "content-length" headers = []) ∧
      ∀ value ∈ valuesOf "content-length" headers, lengthOf value = contentLength := by
  unfold prescribed
  -- without a length nothing is refused; with lengths the first decides, and the others agree or not
  cases hvalues : valuesOf "content-length" headers with
  | nil =>
    simp only [List.map_nil, Decision.framed.injEq, List.not_mem_nil, false_implies, implies_true,
      and_true, iff_true, eq_comm (a := none)]
  | cons value values =>
    rw [List.map_cons]
    cases hlength : lengthOf value with
    | none =>
      simp only [reduceCtorEq, false_iff, not_and, iff_false]
      intro _ hsome hall
      rw [hall value List.mem_cons_self] at hlength
      exact hsome hlength
    | some n =>
      dsimp only
      split_ifs with hall
      · simp only [Decision.framed.injEq, iff_false]
        constructor
        · rintro ⟨hchunked, rfl⟩
          refine ⟨hchunked, by simp, ?_⟩
          intro value' hmem
          rcases List.mem_cons.mp hmem with rfl | hmem
          · exact hlength
          · exact hall _ (List.mem_map_of_mem hmem)
        · rintro ⟨hchunked, -, hvalue⟩
          exact ⟨hchunked, hlength.symm.trans (hvalue value List.mem_cons_self)⟩
      · simp only [false_iff, not_and]
        intro _ _ hvalue
        have hn : some n = contentLength := hlength.symm.trans (hvalue value List.mem_cons_self)
        apply hall
        intro length hmem
        obtain ⟨value', hvalue', rfl⟩ := List.mem_map.mp hmem
        exact (hvalue value' (List.mem_cons_of_mem _ hvalue')).trans hn.symm

section

variable {headers : Bytes}

/-- What the scan does not refuse. -/
theorem decided_of_taken (h : Taken (valuesOf "content-length" headers)) :
    decided (scanHeaders headers) = .framed (mentionsChunked headers)
      (if (scanHeaders headers).cl = npos then none else some (scanHeaders headers).cl) := by
  have hscan := scanned_foldl (headerLines headers)
  have hvalid : (scanHeaders headers).invalid = false := hscan.invalid_iff.mpr h
  have hchunked : (scanHeaders headers).chunked = mentionsChunked headers := hscan.chunked_eq
  rw [decided, hvalid, hchunked]
  rfl

theorem decided_of_not_taken (h : ¬ Taken (valuesOf "content-length" headers)) :
    decided (scanHeaders headers) = .refused := by
  have hscan := scanned_foldl (headerLines headers)
  have hinvalid : (scanHeaders headers).invalid = true := by
    rw [← Bool.not_eq_false]
    exact fun hvalid => h (hscan.invalid_iff.mp hvalid)
  rw [decided, if_pos hinvalid]

/-- The rules refuse all that the scan refuses. -/
theorem prescribed_of_not_taken (h : ¬ Taken (valuesOf "content-length" headers)) :
    prescribed headers = .refused := by
  cases hprescribed : prescribed headers with
  | refused => rfl
  | framed chunked contentLength =>
    exfalso
    obtain ⟨-, hnone, hall⟩ := prescribed_eq_framed_iff.mp hprescribed
    apply h
    cases contentLength with
    | none =>
      rw [hnone.mp rfl]
      exact Taken.nil
    | some n =>
      have hspells : ∀ value ∈ valuesOf "content-length" headers, Spells value n := by
        intro value hmem
        exact spells_of_lengthOf (hall value hmem)
      refine ⟨fun value hmem => ⟨n, hspells value hmem⟩, List.pairwise_of_forall_mem_list ?_⟩
      intro value hmem value' hmem' m m' hm hm'
      right
      rw [hm.unique (hspells value hmem), hm'.unique (hspells value' hmem')]

/-- A section that is not refused has no lengths but plain ones below `npos`, and mentions no `chunked`
that is not the coding listed last. -/
def PlainlyFramed (headers : Bytes) : Prop :=
  (∀ value ∈ valuesOf "content-length" headers, ∃ n, lengthOf value = some n ∧ n ≠ npos) ∧
    (mentionsChunked headers = true → lastCodingChunked headers = true)

/-- On these both decisions are one. -/
theorem decided_eq_prescribed_of_plainlyFramed (h : Taken (valuesOf "content-length" headers))
    (hplain : PlainlyFramed headers) : decided (scanHeaders headers) = prescribed headers := by
  obtain ⟨hlengths, hmentions⟩ := hplain
  have hscan := scanned_foldl (headerLines headers)
  rw [decided_of_taken h, eq_comm, prescribed_eq_framed_iff]
  refine ⟨Bool.eq_iff_iff.mpr ⟨mentionsChunked_of_last, hmentions⟩, ?_⟩
  cases hlast : (valuesOf "content-length" headers).getLast? with
  | none =>
    have hnil := List.getLast?_eq_none_iff.mp hlast
    have hcl : (scanHeaders headers).cl = npos := hscan.cl_none hnil
    rw [if_pos hcl, hnil]
    simp
  | some last =>
    have hmem := List.mem_of_getLast? hlast
    obtain ⟨n, hn, hne⟩ := hlengths last hmem
    have hspells : Spells last n := spells_of_lengthOf hn
    have hcl : (scanHeaders headers).cl = n := (hscan.cl_last last h hlast).unique hspells
    rw [hcl, if_neg hne]
    refine ⟨by simp [List.ne_nil_of_mem hmem], ?_⟩
    intro value hvalue
    obtain ⟨m, hm, hmne⟩ := hlengths value hvalue
    rw [hm, (h.eq_last hlast hspells hvalue (spells_of_lengthOf hm)).resolve_left hmne]

theorem plainlyFramed_of_decided_eq (h : Taken (valuesOf "content-length" headers))
    (heq : decided (scanHeaders headers) = prescribed headers) : PlainlyFramed headers := by
  rw [decided_of_taken h, eq_comm, prescribed_eq_framed_iff] at heq
  obtain ⟨hchunked, hnone, hall⟩ := heq
  refine ⟨?_, fun hmentions => hchunked.trans hmentions⟩
  intro value hmem
  by_cases hcl : (scanHeaders headers).cl = npos
  · rw [if_pos hcl] at hnone
    rw [hnone.mp rfl] at hmem
    cases hmem
  · rw [if_neg hcl] at hall
    exact ⟨_, hall value hmem, hcl⟩

end

/-- **The framing is the one the rules prescribe** for exactly the sections that are refused, or that have
plain lengths below `npos` and mention `chunked` only if it is the coding listed last. -/
theorem framing_iff (headers : Bytes) :
    (∀ req source head, readHead [] 0 [] source = .ok head → head.headers = headers →
      readResponse req source = answer req head (scanHeaders headers).connectionClose
        (decided (scanHeaders headers))) ∧
    (decided (scanHeaders headers) = prescribed headers ↔
      (Taken (valuesOf "content-length" headers) → PlainlyFramed headers)) := by
  constructor
  · rintro req source head hhead rfl
    exact readResponse_of_head hhead
  by_cases htaken : Taken (valuesOf "content-length" headers)
  · constructor
    · exact fun heq _ => plainlyFramed_of_decided_eq htaken heq
    · exact fun hplain => decided_eq_prescribed_of_plainlyFramed htaken (hplain htaken)
  · rw [decided_of_not_taken htaken, prescribed_of_not_taken htaken]
    exact ⟨fun _ h => absurd h htaken, fun _ => rfl⟩

/-- A section whose length has a sign. -/
def signedLength : Bytes := ascii "HTTP/1.1 200 OK\r\nContent-Length: +5"

/-- A response with it. -/
def signedLengthSource : Source := ⟨[signedLength ++ emptyLineMark ++ ascii "hello"], .eof⟩

/-- It is taken for a response of five bytes; the length `npos` is taken for none, and a coding that is
not `chunked` for `chunked`. -/
theorem framing_signedLength :
    (readHead [] 0 [] signedLengthSource).toOption.map Head.headers = some signedLength ∧
    (readResponse fiveBytesRequest signedLengthSource).1.errCode = .ok ∧
    (readResponse fiveBytesRequest signedLengthSource).1.body = ascii "hello" ∧
    decided (scanHeaders signedLength) = .framed false (some 5) ∧ prescribed signedLength = .refused ∧
    decided (scanHeaders (ascii "Content-Length: 18446744073709551615")) = .framed false none ∧
    prescribed (ascii "Content-Length: 18446744073709551615") = .framed false (some (2 ^ 64 - 1)) ∧
    decided (scanHeaders (ascii "Transfer-Encoding: chunked, gzip")) = .framed true none ∧
    prescribed (ascii "Transfer-Encoding: chunked, gzip") = .framed false none := by
  decide +kernel

end Http1

end AsterNet
