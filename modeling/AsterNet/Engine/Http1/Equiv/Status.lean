import AsterNet.Engine.Http1.Equiv.Limit
import AsterNet.Engine.Http1.Equiv.Whole

/-!
# The status line

When an OK answer comes from an HTTP/1.x response (`OkIsResponse`).  The status is looked for between the
first two blanks of the buffer, wherever they stand, and nothing else of the first line is looked at; it
stays `0` when there are fewer (`httpStatus_eq`).

`okIsResponse_iff` is the exact condition, `SpeaksHttp`.  A response that is refused for another reason
need not be one: `readBody_ok_iff` says which bodies arrive.
-/

namespace AsterNet

namespace Http1

open ByteString Segmented

/-! ### Status lines -/

/-- The text begins with a status line: `HTTP/1.`, a digit, a blank, and the three digits of the status.
The rest of the line is optional. -/
def BeginsWithStatus (text : Bytes) (status : ℕ) : Prop :=
  ∃ (version : UInt8) (digits rest : Bytes),
    text = ascii "HTTP/1." ++ version :: 32 :: (digits ++ rest) ∧ isDigit version = true ∧
    digits.length = 3 ∧ AllDigits 10 digits ∧ StopsDigits 10 rest ∧ digitsValue 10 digits = status

/-- An OK answer comes from a response: interim sections, and a final one whose status is reported. -/
def OkIsResponse (dial : Dial) (engine : Http1Engine) (req : Request) (source : Source) : Prop :=
  (request dial engine req).1.errCode = .ok →
    ∃ interim final status rest, source.bytes = (interim ++ [final]).flatten ++ rest ∧
      (request dial engine req).1.sections = interim ++ [final] ∧
      (∀ σ ∈ interim, ∃ k, 100 ≤ k ∧ k < 200 ∧ BeginsWithStatus σ k) ∧
      BeginsWithStatus final status ∧ 200 ≤ status ∧ status ≤ 599 ∧
      (request dial engine req).1.httpStatus = status

/-! ### The condition -/

/-- What the buffer holds when the final section is judged. -/
def Head.window (head : Head) : Bytes := head.headers ++ emptyLineMark ++ head.body

/-- The body arrives in the framing that the section announces. -/
def Arrives (req : Request) (head : Head) : Prop :=
  if noBodyStatus req (parseStatus head.window 0) then head.body = []
  else if (scanHeaders head.headers).chunked then
    ∃ m decoded rest d after, head.behind = m ++ rest ∧ IsCoding m decoded ∧
      decoded.length ≤ maxBodyOf req ∧ Reads bufSize head.source d after ∧
      m.length ≤ (head.body ++ d).length ∧ (head.body ++ d).length ≤ codedLimit (maxBodyOf req)
  else if (scanHeaders head.headers).cl ≠ npos then
    (scanHeaders head.headers).cl ≤ maxBodyOf req ∧
      head.body.length ≤ (scanHeaders head.headers).cl ∧
      (scanHeaders head.headers).cl ≤ head.behind.length
  else head.behind.length ≤ maxBodyOf req ∨ (maxBodyOf req = npos ∧ head.body = [])

/-- Unless its fields or its body are refused, the stream is a response: the interim sections begin with
status lines, the final one does, and the buffer holds a second blank behind its status. -/
def SpeaksHttp (req : Request) (source : Source) : Prop :=
  ∀ head, readHead [] 0 [] source = .ok head → (scanHeaders head.headers).invalid = false →
    Arrives req head →
    (∀ σ ∈ head.sections.dropLast, ∃ k, 100 ≤ k ∧ k < 200 ∧ BeginsWithStatus σ k) ∧
    ∃ status, 200 ≤ status ∧ status ≤ 599 ∧ BeginsWithStatus (head.headers ++ emptyLineMark) status ∧
      32 ∈ head.window.drop 9

/-! ### The status that is found -/

theorem find_blank_isSome_iff {s : Bytes} : (find [32] s).isSome ↔ (32 : UInt8) ∈ s := by
  rw [← contains, contains_iff_infix]
  exact List.singleton_infix_iff 32 s

/-- With two blanks in the buffer the status that was there before does not matter; with fewer it stays. -/
theorem parseStatus_cases (raw : Bytes) :
    (∃ status, ∀ old, parseStatus raw old = status) ∨ ∀ old, parseStatus raw old = old := by
  unfold parseStatus
  cases find [32] raw with
  | none => exact .inr fun _ => rfl
  | some sp1 =>
    dsimp only
    cases findFrom [32] raw (sp1 + 1) with
    | none => exact .inr fun _ => rfl
    | some _ => exact .inl ⟨_, fun _ => rfl⟩

/-- Behind a version the status is what follows the blank, if there is another blank. -/
theorem parseStatus_version {version : UInt8} (hv : isDigit version = true) (tail : Bytes) (old : ℤ) :
    parseStatus (ascii "HTTP/1." ++ version :: 32 :: tail) old =
      if 32 ∈ tail then atoi (cStr tail) else old := by
  have hsplit : ascii "HTTP/1." ++ version :: 32 :: tail =
      (ascii "HTTP/1." ++ [version]) ++ 32 :: tail := by
    rw [List.append_assoc, List.singleton_append]
  -- a digit is not a blank, so the first blank is the one behind the version
  have hversion : (32 : UInt8) ∉ ascii "HTTP/1." ++ [version] := by
    rw [List.mem_append, List.mem_singleton, not_or]
    refine ⟨by decide, ?_⟩
    rintro rfl
    revert hv
    decide
  have hsp1 : find [32] (ascii "HTTP/1." ++ version :: 32 :: tail) = some 8 := by
    rw [hsplit, find_append_of_not_mem hversion, find, if_pos (by simp [List.isPrefixOf])]
    rfl
  have hdrop : (ascii "HTTP/1." ++ version :: 32 :: tail).drop (8 + 1) = tail := rfl
  rw [parseStatus, hsp1]
  dsimp only
  rw [findFrom, hdrop]
  -- the second blank may be missing, and the status is then the old one
  cases hsp2 : find [32] tail with
  | none =>
    have hnot : (32 : UInt8) ∉ tail := by
      rw [← find_blank_isSome_iff, hsp2]
      simp
    rw [if_neg hnot]
    rfl
  | some sp2 =>
    have hmem : (32 : UInt8) ∈ tail := by
      rw [← find_blank_isSome_iff, hsp2]
      rfl
    rw [if_pos hmem]
    rfl

/-- **The status of the final section** is what the buffer says, or `0`: a section that leaves a status of
an interim response as it was is taken for another interim one. -/
theorem httpStatus_eq {source : Source} {head : Head} (h : readHead [] 0 [] source = .ok head) :
    head.httpStatus = parseStatus head.window 0 := by
  have hgeneral := readHead_induction
    (P := fun _ httpStatus _ _ head => httpStatus = 0 ∨ httpStatus.tdiv 100 = 1 →
      head.httpStatus = parseStatus head.window 0) ?_ ?_ h
  · exact hgeneral (.inl rfl)
  · intro sections httpStatus raw source raw' source' headerEnd _ hf hstatus hold
    have hwindow : raw'.take headerEnd ++ emptyLineMark ++ raw'.drop (headerEnd + 4) = raw' :=
      take_append_drop_of_find hf
    unfold Head.window
    dsimp only
    rw [hwindow]
    rcases parseStatus_cases raw' with ⟨status, hparsed⟩ | hkept
    · rw [hparsed, hparsed]
    · rw [hkept] at hstatus ⊢
      rw [hkept]
      exact hold.resolve_right hstatus
  · intro sections httpStatus raw source raw' source' headerEnd head _ _ hstatus ih _
    exact ih (.inr hstatus)

/-- The number that stands in a status line is read from the buffer. -/
theorem parseStatus_line {version : UInt8} {digits rest : Bytes} (hv : isDigit version = true)
    (hlen : digits.length = 3) (hdigits : AllDigits 10 digits) (hrest : StopsDigits 10 rest)
    (hsmall : digitsValue 10 digits ≤ 599) (hblank : (32 : UInt8) ∈ digits ++ rest) (old : ℤ) :
    parseStatus (ascii "HTTP/1." ++ version :: 32 :: (digits ++ rest)) old = digitsValue 10 digits := by
  have hne : digits ≠ [] := by
    rintro rfl
    cases hlen
  -- a digit is not a zero byte, so the C string has all of them
  have hnul : ∀ c ∈ digits, (c != 0) = true := by
    intro c hc
    rw [bne_iff_ne]
    rintro rfl
    have hzero := hdigits 0 hc
    revert hzero
    decide
  have hcstr : cStr (digits ++ rest) = digits ++ cStr rest := List.takeWhile_append_of_pos hnul
  have hstops : StopsDigits 10 (cStr rest) := by
    cases rest with
    | nil => exact hrest
    | cons c rest =>
      intro d hd
      rw [cStr, List.takeWhile_cons] at hd
      split_ifs at hd
      · exact hrest d hd
      · cases hd
  rw [parseStatus_version hv, if_pos hblank, hcstr, atoi_of_digits hne hdigits hstops (by omega)]

/-- A section that begins with a status line, in the buffer. -/
theorem window_of_begins {head : Head} {status : ℕ}
    (h : BeginsWithStatus (head.headers ++ emptyLineMark) status) :
    ∃ (version : UInt8) (digits rest : Bytes),
      head.window = ascii "HTTP/1." ++ version :: 32 :: (digits ++ rest) ∧ isDigit version = true ∧
      digits.length = 3 ∧ AllDigits 10 digits ∧ StopsDigits 10 rest ∧
      digitsValue 10 digits = status ∧ head.window.drop 9 = digits ++ rest := by
  obtain ⟨version, digits, rest, htext, hv, hlen, hdigits, hrest, hvalue⟩ := h
  -- the window has the body read so far behind the section
  have hwindow : head.window =
      ascii "HTTP/1." ++ version :: 32 :: (digits ++ (rest ++ head.body)) := by
    rw [Head.window, htext]
    simp only [List.append_assoc, List.cons_append]
  refine ⟨version, digits, rest ++ head.body, hwindow, hv, hlen, hdigits, ?_, hvalue, ?_⟩
  · -- the section ends with a line end, not with the digits
    cases rest with
    | cons c rest => exact hrest
    | nil =>
      obtain ⟨front, last, rfl⟩ := (List.eq_nil_or_concat digits).resolve_left (by
        rintro rfl
        cases hlen)
      have hends : (head.headers ++ [13, 10, 13]) ++ [10] =
          (ascii "HTTP/1." ++ version :: 32 :: front) ++ [last] := by
        rw [List.append_assoc, List.append_assoc]
        simpa [emptyLineMark] using htext
      obtain ⟨-, hlast⟩ := List.append_inj' hends rfl
      have hdigit := hdigits last (by simp)
      rw [← List.head_eq_of_cons_eq hlast] at hdigit
      exact absurd hdigit (by decide)
  · rw [hwindow]
    rfl

/-! ### The bodies that arrive -/

/-- **The body phase succeeds** on exactly the bodies that arrive. -/
theorem readBody_ok_iff {req : Request} {source : Source} {head : Head}
    (h : readHead [] 0 [] source = .ok head) :
    (∃ b, readBody req head (scanHeaders head.headers) = .ok b) ↔ Arrives req head := by
  unfold readBody Arrives
  dsimp only
  rw [← httpStatus_eq h]
  by_cases hnone : noBodyStatus req head.httpStatus = true
  · rw [if_pos hnone, if_pos hnone]
    constructor
    · rintro ⟨b, hb⟩
      exact (takeNoBody_ok_iff.mp hb).1
    · intro hnil
      exact ⟨_, takeNoBody_ok_iff.mpr ⟨hnil, rfl⟩⟩
  rw [if_neg hnone, if_neg hnone]
  by_cases hchunked : (scanHeaders head.headers).chunked = true
  · rw [if_pos hchunked, if_pos hchunked]
    exact readChunked_ok_iff
  rw [if_neg hchunked, if_neg hchunked]
  by_cases hcl : (scanHeaders head.headers).cl ≠ npos
  · rw [if_pos hcl, if_pos hcl]
    exact readLength_ok_iff
  · rw [if_neg hcl, if_neg hcl]
    exact readToEnd_ok_iff (maxBodyOf_le req)

/-! ### The reply -/

variable {dial : Dial} {engine : Http1Engine} {req : Request} {source : Source}

/-- **When OK means a response.**  An OK answer comes from an HTTP/1.x response, and reports its status, if
and only if the stream speaks HTTP/1.x or is refused for its fields or its body. -/
theorem okIsResponse_iff (hsent : Sent dial engine req source) :
    OkIsResponse dial engine req source ↔ SpeaksHttp req source := by
  obtain ⟨⟨reused, hreply⟩, -⟩ := request_of_sent hsent
  rw [OkIsResponse, hreply]
  dsimp only
  constructor
  · intro hok head hread hinvalid harrives
    obtain ⟨b, hb⟩ := (readBody_ok_iff hread).mpr harrives
    have hreply := readResponse_of_ok hread hinvalid hb (length_le_of_readBody hb)
    rw [hreply] at hok
    obtain ⟨interim, final, status, rest, -, hsections, hinterim, hfinal, hlow, hhigh, hstatus⟩ := hok rfl
    dsimp only at hsections hstatus
    have hlast := (readHead_spec hread).last
    rw [hsections, List.getLast?_concat] at hlast
    obtain rfl := Option.some.inj hlast
    refine ⟨by rwa [hsections, List.dropLast_concat], status, hlow, hhigh, hfinal, ?_⟩
    -- without the second blank the status would be `0`
    obtain ⟨version, digits, rest, hwindow, hv, -, -, -, -, hdrop⟩ := window_of_begins hfinal
    rw [hdrop]
    by_contra hnot
    rw [httpStatus_eq hread, hwindow, parseStatus_version hv, if_neg hnot] at hstatus
    omega
  -- the last section begins with a status line, so the status read from it is the reported one
  · intro hspeaks hok
    obtain ⟨head, b, hread, hinvalid, hb, hle⟩ := readResponse_ok hok
    have spec := readHead_spec hread
    obtain ⟨hinterim, status, hlow, hhigh, hfinal, hblank⟩ :=
      hspeaks head hread hinvalid ((readBody_ok_iff hread).mp ⟨b, hb⟩)
    rw [readResponse_of_ok hread hinvalid hb hle]
    dsimp only
    have hsections : head.sections = head.sections.dropLast ++ [head.headers ++ emptyLineMark] :=
      (List.dropLast_append_getLast? _ spec.last).symm
    refine ⟨head.sections.dropLast, _, status, head.body ++ head.source.bytes, ?_, hsections, hinterim,
      hfinal, hlow, hhigh, ?_⟩
    · rw [← hsections, ← List.append_assoc, spec.bytes]
      rfl
    · obtain ⟨version, digits, rest, hwindow, hv, hlen, hdigits, hrest, hvalue, hdrop⟩ :=
        window_of_begins hfinal
      rw [hdrop] at hblank
      rw [httpStatus_eq hread, hwindow,
        parseStatus_line hv hlen hdigits hrest (by omega) hblank, hvalue]

theorem okIsResponse_helloSource_iff :
    OkIsResponse (dialTo helloSource) {} fiveBytesRequest helloSource ↔
      SpeaksHttp fiveBytesRequest helloSource :=
  okIsResponse_iff (sent_dialTo helloSource)

/-- Text that is no response, with a number between its first two blanks. -/
def garbageSource : Source := ⟨[ascii "garbage 200 garbage\r\n\r\n"], .eof⟩

theorem not_okIsResponse_garbage : ¬ OkIsResponse (dialTo garbageSource) {} fiveBytesRequest garbageSource := by
  intro h
  have hok : (request (dialTo garbageSource) {} fiveBytesRequest).1.errCode = .ok := by decide +kernel
  have hbytes : garbageSource.bytes = 103 :: ascii "arbage 200 garbage\r\n\r\n" := by decide +kernel
  have hinterim : (request (dialTo garbageSource) {} fiveBytesRequest).1.sections =
      [garbageSource.bytes] := by decide +kernel
  obtain ⟨interim, final, status, rest, -, hsections, -, hfinal, -⟩ := h hok
  rw [hinterim] at hsections
  have hlast := congrArg List.getLast? hsections
  rw [List.getLast?_concat, List.getLast?_singleton, hbytes] at hlast
  obtain ⟨version, digits, tail, htext, -⟩ := hfinal
  rw [← Option.some.inj hlast] at htext
  have hhead := congrArg List.head? htext
  have hfirst : (ascii "HTTP/1." ++ version :: 32 :: (digits ++ tail)).head? = some 72 := rfl
  rw [hfirst, List.head?_cons] at hhead
  exact absurd hhead (by decide)

end Http1

end AsterNet
