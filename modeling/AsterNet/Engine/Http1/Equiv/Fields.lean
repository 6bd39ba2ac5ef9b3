import AsterNet.Engine.Http1.Message
import AsterNet.Engine.Http1.Response

/-!
# The scan of a well-formed section

`scanHeaders_of_announcedBy`: over the section of a well-formed response the scan finds the framing
its fields announce, whether one of them says `close`, and nothing invalid.  The lines are taken apart
in `headerLines_joinLines`, one field in `scanLine_of_neutral` and `scanLine_of_announces`.
-/

namespace AsterNet

namespace Http1

open ByteString

/-! ### Lines -/

theorem headerLines_line {line : Bytes} (hl : IsLine line) (rest : Bytes) :
    headerLines (line ++ crlf ++ rest) = line :: headerLines rest := by
  have hfind := hl.find rest
  have hne : line ++ crlf ++ rest ≠ [] := by simp [crlf]
  rw [headerLines, dif_neg hne]
  split
  · simp_all
  · rename_i i hi
    have hlen : i = line.length := Option.some.inj (hi.symm.trans hfind)
    have hdrop : (line ++ crlf ++ rest).drop (line.length + 2) = rest := by
      rw [List.append_assoc, ← List.drop_drop, List.drop_left]
      rfl
    rw [hlen, hdrop, List.append_assoc, List.take_left]

theorem headerLines_last {line : Bytes} (hne : line ≠ []) (hcr : (13 : UInt8) ∉ line) :
    headerLines line = [line] := by
  have hfind : find crlf line = none := find_eq_none_of_not_mem hcr
  rw [headerLines, dif_neg hne]
  split <;> simp_all

/-- The scan sees the lines that were joined. -/
theorem headerLines_joinLines {line : Bytes} {lines : List Bytes}
    (hcr : ∀ l ∈ line :: lines, (13 : UInt8) ∉ l) (hne : ∀ l ∈ line :: lines, l ≠ []) :
    headerLines (joinLines line lines) = line :: lines := by
  induction lines generalizing line with
  | nil =>
    have h := hne line (List.mem_cons_self ..)
    rw [joinLines, List.flatMap_nil, List.append_nil,
      headerLines_last h (hcr line (List.mem_cons_self ..))]
  | cons next lines ih =>
    have hl : IsLine line := isLine_of_not_mem (hcr line (List.mem_cons_self ..))
    rw [joinLines_cons, headerLines_line hl, ih (fun l h => hcr l (List.mem_cons_of_mem _ h))
      fun l h => hne l (List.mem_cons_of_mem _ h)]

namespace Section

variable (σ : Section)

/-- The section without its end mark. -/
def headers : Bytes := joinLines σ.statusLine (σ.fields.map Field.text)

theorem bytes_eq : σ.bytes = σ.headers ++ emptyLineMark := by
  rw [bytes, flatMap_ended_eq, List.append_assoc]
  rfl

theorem length_bytes : σ.bytes.length = σ.headers.length + 4 := by
  rw [bytes_eq, List.length_append]
  rfl

end Section

theorem Field.text_no_cr (f : Field) : (13 : UInt8) ∉ f.text := by
  have hsep : (13 : UInt8) ∉ ascii ": " := by decide
  simp only [Field.text, List.mem_append, not_or]
  exact ⟨⟨f.name.no_cr, hsep⟩, f.value.no_cr⟩

theorem Field.text_ne (f : Field) : f.text ≠ [] := by
  simp [Field.text, ascii]

theorem decimal_not_mem {c : UInt8} (hc : digitVal 10 c = none) (n : ℕ) : c ∉ decimal n := by
  intro h
  have := decimal_allDigits n c h
  rw [hc] at this
  cases this

namespace Section

variable (σ : Section)

theorem statusLine_no_cr : (13 : UInt8) ∉ σ.statusLine := by
  have hversion : (13 : UInt8) ∉ ascii "HTTP/1.1 " := by decide
  have hblank : (13 : UInt8) ∉ ascii " " := by decide
  simp only [statusLine, List.mem_append, not_or]
  exact ⟨⟨⟨hversion, decimal_not_mem (by decide) _⟩, hblank⟩, σ.reason.no_cr⟩

theorem lines_no_cr : ∀ l ∈ σ.statusLine :: σ.fields.map Field.text, (13 : UInt8) ∉ l := by
  intro l hl
  rcases List.mem_cons.mp hl with rfl | hl
  · exact σ.statusLine_no_cr
  · obtain ⟨f, -, rfl⟩ := List.mem_map.mp hl
    exact f.text_no_cr

theorem lines_ne : ∀ l ∈ σ.statusLine :: σ.fields.map Field.text, l ≠ [] := by
  intro l hl
  rcases List.mem_cons.mp hl with rfl | hl
  · simp [statusLine, ascii]
  · obtain ⟨f, -, rfl⟩ := List.mem_map.mp hl
    exact f.text_ne

theorem headerLines_headers :
    headerLines σ.headers = σ.statusLine :: σ.fields.map Field.text :=
  headerLines_joinLines σ.lines_no_cr σ.lines_ne

end Section

/-! ### One line -/

theorem parseField_text (f : Field) :
    parseField f.text = some (lower f.name.bytes, trimBlanks f.value.bytes) := by
  have htext : f.text = f.name.bytes ++ 58 :: 32 :: f.value.bytes := by
    rw [Field.text, List.append_assoc]
    rfl
  have hfind : find [58] f.text = some f.name.bytes.length := by
    rw [htext, find_append_of_not_mem f.no_colon]
    simp [find, List.isPrefixOf]
  have hdrop : f.text.drop (f.name.bytes.length + 1) = 32 :: f.value.bytes := by
    rw [htext, ← List.drop_drop, List.drop_left]
    rfl
  rw [parseField, hfind, Option.map_some, hdrop, trimBlanks_cons_blank (by decide), htext,
    List.take_left]

/-- The status line is not one of the fields the scan looks for. -/
theorem scanLine_statusLine (scan : Scan) (σ : Section) : scanLine scan σ.statusLine = scan := by
  cases hp : parseField σ.statusLine with
  | none => rw [scanLine, hp]
  | some field =>
    obtain ⟨name, value⟩ := field
    have hname : name.head? = some 104 ∨ name = [] := by
      obtain ⟨i, -, hi⟩ := Option.map_eq_some_iff.mp hp
      obtain ⟨rfl, -⟩ := Prod.mk.inj hi
      have hhead : σ.statusLine = 72 :: σ.statusLine.tail := by simp [Section.statusLine, ascii]
      cases i with
      | zero => exact .inr rfl
      | succ i =>
        left
        rw [hhead]
        rfl
    have hother : name ≠ ascii "transfer-encoding" ∧ name ≠ ascii "connection" ∧
        name ≠ ascii "content-length" := by
      refine ⟨?_, ?_, ?_⟩ <;> rintro rfl <;> revert hname <;> decide
    rw [scanLine, hp]
    dsimp only
    rw [if_neg (fun h => hother.1 h.1), if_neg (fun h => hother.2.1 h.1), if_neg hother.2.2]

/-- A neutral field only can say `close`. -/
theorem scanLine_of_neutral {f : Field} (hf : Framing.Neutral f) (scan : Scan) :
    scanLine scan f.text = { scan with connectionClose := scan.connectionClose || f.closes } := by
  have hcontains : contains (ascii "close") (lower (trimBlanks f.value.bytes)) =
      contains (ascii "close") (lower f.value.bytes) := by
    rw [Bool.eq_iff_iff, contains_iff_infix, contains_iff_infix, lower_trimBlanks,
      infix_trimBlanks_iff (by decide) (by decide +kernel)]
  have hlength : ¬ lower f.name.bytes = ascii "content-length" := hf.1
  rw [scanLine, parseField_text]
  dsimp only
  rw [if_neg (fun h => hf.2 h.1), hcontains, Field.closes]
  by_cases hname : f.Named "connection"
  · have hname' : lower f.name.bytes = ascii "connection" := hname
    by_cases hclose : contains (ascii "close") (lower f.value.bytes) = true
    · rw [if_pos ⟨hname', hclose⟩]
      simp [hname, hclose]
    · rw [if_neg (fun h => hclose h.2), if_neg hlength]
      simp [hclose]
  · rw [if_neg (fun h => hname h.1), if_neg hlength]
    simp [hname]

/-- What a framing leaves in `cl`. -/
def Framing.cl : Framing → ℕ
  | .contentLength n => n
  | _ => npos

theorem decimal_no_blank {c : UInt8} {n : ℕ} (hc : c ∈ decimal n) : isBlank c = false := by
  have hdigit : ∀ c : UInt8, (digitVal 10 c).isSome → isBlank c = false := by decide +kernel
  exact hdigit c (decimal_allDigits n c hc)

theorem parseLength_decimal {n : ℕ} (hn : n ≤ ullongMax) : parseLength (decimal n) = some n := by
  have hcstr : cStr (decimal n) = decimal n := cStr_eq_self (decimal_not_mem (by decide) n)
  simp only [parseLength, hcstr, strtoull_decimal hn, List.drop_length, List.dropWhile_nil]
  rw [if_neg]
  simpa using decimal_ne_nil n

/-- A length that does not fit is none. -/
theorem parseLength_decimal_of_lt {n : ℕ} (hn : ullongMax < n) : parseLength (decimal n) = none := by
  have hcstr : cStr (decimal n) = decimal n := cStr_eq_self (decimal_not_mem (by decide) n)
  have hnumber := strtoull_digits (.inl rfl) (decimal_ne_nil n) (decimal_allDigits n)
    (show StopsDigits 10 [] by simp [StopsDigits]) (by simp)
  rw [List.append_nil, digitsValue_decimal, if_pos hn] at hnumber
  simp only [parseLength, hcstr, hnumber, or_true, true_or, if_true]

/-- The framing field. -/
theorem scanLine_of_announces {framing : Framing} {f : Field} (hf : framing.Announces f)
    (hn : framing.cl ≤ ullongMax) (close : Bool) :
    scanLine { connectionClose := close } f.text =
      { chunked := decide (framing = .chunked), connectionClose := close, cl := framing.cl } := by
  rw [scanLine, parseField_text]
  dsimp only
  -- the announced framing has a field of its own, or none at all
  cases framing with
  | contentLength n =>
    obtain ⟨hname, hvalue⟩ := hf
    have htrim : trimBlanks f.value.bytes = decimal n := by
      rw [hvalue]
      exact trimBlanks_eq_self fun c hc => decimal_no_blank hc
    have hname' : lower f.name.bytes = ascii "content-length" := hname
    -- neither of the two branches before takes the name
    have hother : ascii "content-length" ≠ ascii "transfer-encoding" ∧
        ascii "content-length" ≠ ascii "connection" := by decide
    have hparse : parseLength (decimal n) = some n := parseLength_decimal hn
    rw [hname', htrim, if_neg (fun h => hother.1 h.1), if_neg (fun h => hother.2 h.1), if_pos rfl,
      hparse]
    simp [Framing.cl]
  | chunked =>
    obtain ⟨hname, hvalue⟩ := hf
    have hname' : lower f.name.bytes = ascii "transfer-encoding" := hname
    rw [lower_trimBlanks, hvalue, hname', if_pos ⟨rfl, by decide⟩]
    simp [Framing.cl]
  | close => cases hf

/-! ### The section -/

theorem foldl_scanLine_of_neutral {fields : List Field} (h : ∀ f ∈ fields, Framing.Neutral f)
    (scan : Scan) : (fields.map Field.text).foldl scanLine scan =
      { scan with connectionClose := scan.connectionClose || fields.any Field.closes } := by
  induction fields generalizing scan with
  | nil => simp
  | cons f fields ih =>
    rw [List.map_cons, List.foldl_cons, scanLine_of_neutral (h f (List.mem_cons_self ..)),
      ih fun g hg => h g (List.mem_cons_of_mem _ hg), List.any_cons, Bool.or_assoc]

/-- A framing field does not say `close`. -/
theorem closes_of_announces {framing : Framing} {f : Field} (hf : framing.Announces f) :
    f.closes = false := by
  have hname : lower f.name.bytes ≠ ascii "connection" := by
    cases framing with
    | contentLength n => rw [show lower f.name.bytes = _ from hf.1]; decide
    | chunked => rw [show lower f.name.bytes = _ from hf.1]; decide
    | close => cases hf
  have hnamed : ¬ f.Named "connection" := hname
  rw [Field.closes, decide_eq_false hnamed, Bool.false_and]

/-- **The scan of a well-formed section.** -/
theorem scanHeaders_of_announcedBy {σ : Section} {framing : Framing}
    (h : framing.AnnouncedBy σ.fields) (hn : framing.cl ≤ ullongMax) :
    scanHeaders σ.headers =
      { chunked := decide (framing = .chunked), connectionClose := σ.fields.any Field.closes
        cl := framing.cl } := by
  rw [scanHeaders, σ.headerLines_headers, List.foldl_cons, scanLine_statusLine]
  rcases h with ⟨rfl, hneutral⟩ | ⟨before, f, after, hfields, hf, hbefore, hafter⟩
  · rw [foldl_scanLine_of_neutral hneutral]
    simp [Framing.cl]
  · rw [hfields, List.map_append, List.map_cons, List.foldl_append, List.foldl_cons,
      foldl_scanLine_of_neutral hbefore, scanLine_of_announces hf hn,
      foldl_scanLine_of_neutral hafter]
    simp [closes_of_announces hf]

/-- **A length that does not fit** makes the section invalid. -/
theorem invalid_of_announcedBy {σ : Section} {n : ℕ}
    (h : (Framing.contentLength n).AnnouncedBy σ.fields) (hn : ullongMax < n) :
    (scanHeaders σ.headers).invalid = true := by
  rw [scanHeaders, σ.headerLines_headers, List.foldl_cons, scanLine_statusLine]
  rcases h with ⟨hclose, -⟩ | ⟨before, f, after, hfields, ⟨hname, hvalue⟩, hbefore, hafter⟩
  · cases hclose
  rw [hfields, List.map_append, List.map_cons, List.foldl_append, List.foldl_cons,
    foldl_scanLine_of_neutral hafter, scanLine, parseField_text]
  have htrim : trimBlanks f.value.bytes = decimal n := by
    rw [hvalue]
    exact trimBlanks_eq_self fun c hc => decimal_no_blank hc
  have hname' : lower f.name.bytes = ascii "content-length" := hname
  have hother : ascii "content-length" ≠ ascii "transfer-encoding" ∧
      ascii "content-length" ≠ ascii "connection" := by decide
  dsimp only
  rw [hname', htrim, if_neg (fun h => hother.1 h.1), if_neg (fun h => hother.2 h.1), if_pos rfl,
    parseLength_decimal_of_lt hn]

end Http1

end AsterNet
