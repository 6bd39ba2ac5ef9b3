import AsterNet.Engine.Http1.Equiv.Complete

/-!
# Truncated responses

When an OK answer carries the whole body its framing announces.  `WholeBody` says what whole means for
each framing: a complete coding, all announced bytes, or everything up to a clean end of the stream.

`okIsWhole_iff` is the exact condition, `EndsAsAnnounced`: it fails when a body without length is cut
off by a failed read, and when a length of `2^64 - 1` (also written `-1`) is taken for no length.
-/

namespace AsterNet

namespace Http1

open ByteString Segmented

/-! ### The announced lengths -/

/-- The length a header line announces. -/
def announcedLength (line : Bytes) : Option ℕ :=
  match parseField line with
  | none => none
  | some (name, value) => if name = ascii "content-length" then parseLength value else none

/-- All lengths a section announces. -/
def announcedLengths (headers : Bytes) : List ℕ := (headerLines headers).filterMap announcedLength

/-- What `cl` says about the lengths seen so far: none, or only `npos`; or itself and `npos`. -/
def LengthsSeen (scan : Scan) (lengths : List ℕ) : Prop :=
  scan.invalid = false →
    (scan.cl = npos → ∀ n ∈ lengths, n = npos) ∧
    (scan.cl ≠ npos → scan.cl ∈ lengths ∧ ∀ n ∈ lengths, n = scan.cl ∨ n = npos)

theorem lengthsSeen_scanLine {scan : Scan} {lengths : List ℕ} (h : LengthsSeen scan lengths)
    (line : Bytes) :
    LengthsSeen (scanLine scan line) (lengths ++ (announcedLength line).toList) := by
  -- only a `Content-Length` field has a length to see
  cases hp : parseField line with
  | none => simpa [scanLine, announcedLength, hp] using h
  | some field =>
    obtain ⟨name, value⟩ := field
    by_cases hname : name = ascii "content-length"
    · have hscan : scanLine scan line = (parseLength value).elim { scan with invalid := true }
          fun parsed => if scan.cl ≠ npos ∧ scan.cl ≠ parsed then { scan with invalid := true }
            else { scan with cl := parsed } := by
        subst hname
        rw [scanLine, hp]
        dsimp only
        refine (if_neg fun h => absurd h.1 (by decide)).trans
          ((if_neg fun h => absurd h.1 (by decide)).trans ((if_pos rfl).trans ?_))
        cases parseLength value <;> rfl
      have hlength : announcedLength line = parseLength value := by
        rw [announcedLength, hp]
        exact if_pos hname
      rw [hscan, hlength]
      -- a text that is no length makes the scan invalid
      cases parseLength value with
      | none => exact fun hinvalid => absurd hinvalid (by simp)
      | some parsed =>
        dsimp only [Option.elim_some]
        -- a conflict makes it invalid, too
        split_ifs with hconflict
        · exact fun hinvalid => absurd hinvalid (by simp)
        · intro hinvalid
          obtain ⟨hnone, hsome⟩ := h hinvalid
          simp only [Option.toList_some, List.mem_append, List.mem_singleton]
          constructor
          · rintro rfl n (hn | rfl)
            · by_cases hcl : scan.cl = npos
              · exact hnone hcl n hn
              · exact absurd ⟨hcl, hcl⟩ hconflict
            · rfl
          · intro hparsed
            refine ⟨by simp, ?_⟩
            rintro n (hn | rfl)
            · by_cases hcl : scan.cl = npos
              · exact .inr (hnone hcl n hn)
              · -- a second length must be the first one again
                have hsame : scan.cl = parsed := by
                  by_contra hne
                  exact hconflict ⟨hcl, hne⟩
                rw [← hsame]
                exact (hsome hcl).2 n hn
            · exact .inl rfl
    -- the other fields leave the length and the flag alone
    · have hlength : announcedLength line = none := by
        rw [announcedLength, hp]
        exact if_neg hname
      have hcl : (scanLine scan line).cl = scan.cl ∧
          (scanLine scan line).invalid = scan.invalid := by
        rw [scanLine, hp]
        dsimp only
        split_ifs <;> exact ⟨rfl, rfl⟩
      rw [hlength, Option.toList_none, List.append_nil, LengthsSeen, hcl.1, hcl.2]
      exact h

theorem lengthsSeen_foldl {scan : Scan} {lengths : List ℕ} (h : LengthsSeen scan lengths)
    (lines : List Bytes) :
    LengthsSeen (lines.foldl scanLine scan) (lengths ++ lines.filterMap announcedLength) := by
  induction lines generalizing scan lengths with
  | nil => simpa using h
  | cons line lines ih =>
    have hstep := ih (lengthsSeen_scanLine h line)
    rw [List.append_assoc] at hstep
    rw [List.foldl_cons, List.filterMap_cons]
    cases hl : announcedLength line with
    | none => simpa [hl] using hstep
    | some n => simpa [hl] using hstep

/-- The scan of a section records its lengths. -/
theorem lengthsSeen_scanHeaders (headers : Bytes) :
    LengthsSeen (scanHeaders headers) (announcedLengths headers) := by
  have hempty : LengthsSeen {} [] := by
    intro _
    exact ⟨fun _ n hn => absurd hn (List.not_mem_nil), fun h => absurd rfl h⟩
  exact lengthsSeen_foldl hempty (headerLines headers)

/-! ### Whole bodies -/

/-- Everything behind the header sections. -/
def Head.behind (head : Head) : Bytes := head.body ++ head.source.bytes

/-- The body is the whole body its framing announces. -/
def WholeBody (req : Request) (head : Head) (body : Bytes) : Prop :=
  if noBodyStatus req head.httpStatus then body = []
  else if (scanHeaders head.headers).chunked then
    ∃ m rest, head.behind = m ++ rest ∧ IsCoding m body
  else if announcedLengths head.headers = [] then
    body = head.behind ∧ head.source.ending = .eof
  else ∀ n ∈ announcedLengths head.headers, n ≤ head.behind.length ∧ body = head.behind.take n

/-- An OK answer carries the whole body, and no read failed on the way to it. -/
def OkIsWhole (dial : Dial) (engine : Http1Engine) (req : Request) (source : Source) : Prop :=
  (request dial engine req).1.errCode = .ok →
    (∃ head, readHead [] 0 [] source = .ok head ∧
      WholeBody req head (request dial engine req).1.body) ∧
    (request dial engine req).1.readFailed = false

/-- Behind the sections, a body without chunks ends as it is announced, or is refused.  Without a
length that is its own (`cl = npos`): there is more than the limit, or no length at all and a clean
end.  With one: no field announces `2^64 - 1` besides it, or the length is not allowed, does not
arrive, or was exceeded by the header phase. -/
def EndsAsAnnounced (req : Request) (source : Source) : Prop :=
  ∀ head, readHead [] 0 [] source = .ok head →
    (scanHeaders head.headers).invalid = false → noBodyStatus req head.httpStatus = false →
    (scanHeaders head.headers).chunked = false →
    if (scanHeaders head.headers).cl = npos then
      maxBodyOf req < head.behind.length ∨
        (announcedLengths head.headers = [] ∧ head.source.ending = .eof)
    else npos ∉ announcedLengths head.headers ∨
      maxBodyOf req < (scanHeaders head.headers).cl ∨
      head.behind.length < (scanHeaders head.headers).cl ∨
      (scanHeaders head.headers).cl < head.body.length

/-! ### One framing at a time -/

/-- What the body phase accepts is whole. -/
def BodyIsWhole (req : Request) (head : Head) : Prop :=
  ∀ b, readBody req head (scanHeaders head.headers) = .ok b → b.body.length ≤ maxBodyOf req →
    WholeBody req head b.body ∧ b.readFailed = false

section

variable {req : Request} {head : Head}

theorem bodyIsWhole_of_noBody (hnone : noBodyStatus req head.httpStatus = true) :
    BodyIsWhole req head := by
  intro b hb _
  unfold readBody at hb
  dsimp only at hb
  rw [if_pos hnone, takeNoBody_ok_iff] at hb
  obtain ⟨-, rfl⟩ := hb
  rw [WholeBody, if_pos hnone]
  exact ⟨rfl, rfl⟩

theorem bodyIsWhole_of_chunked (hsome : noBodyStatus req head.httpStatus = false)
    (hchunked : (scanHeaders head.headers).chunked = true) : BodyIsWhole req head := by
  intro b hb _
  unfold readBody at hb
  dsimp only at hb
  rw [if_neg (by rw [hsome]; simp), if_pos hchunked] at hb
  obtain ⟨-, hfailed, hcoding, rest, d, hd, hreads, -⟩ := readChunked_ok hb
  rw [WholeBody, if_neg (by rw [hsome]; simp), if_pos hchunked]
  refine ⟨⟨b.message, rest ++ b.source.bytes, ?_, hcoding⟩, hfailed⟩
  rw [Head.behind, hreads.bytes_eq, ← List.append_assoc, hd, List.append_assoc]

theorem bodyIsWhole_of_length (hsome : noBodyStatus req head.httpStatus = false)
    (hchunked : (scanHeaders head.headers).chunked = false)
    (hinvalid : (scanHeaders head.headers).invalid = false)
    (hcl : (scanHeaders head.headers).cl ≠ npos) :
    BodyIsWhole req head ↔ npos ∉ announcedLengths head.headers ∨
      maxBodyOf req < (scanHeaders head.headers).cl ∨
      head.behind.length < (scanHeaders head.headers).cl ∨
      (scanHeaders head.headers).cl < head.body.length := by
  obtain ⟨hmem, hlengths⟩ := (lengthsSeen_scanHeaders head.headers hinvalid).2 hcl
  have hne : announcedLengths head.headers ≠ [] := List.ne_nil_of_mem hmem
  have hread : readBody req head (scanHeaders head.headers) =
      readLength (maxBodyOf req) (scanHeaders head.headers).cl head.body head.source := by
    unfold readBody
    dsimp only
    rw [if_neg (by rw [hsome]; simp), if_neg (by rw [hchunked]; simp), if_pos hcl]
    rfl
  -- the body of a response that announces lengths is as long as each of them says
  have hwhole : ∀ body, WholeBody req head body ↔
      ∀ n ∈ announcedLengths head.headers, n ≤ head.behind.length ∧ body = head.behind.take n := by
    intro body
    rw [WholeBody, if_neg (by rw [hsome]; simp), if_neg (by rw [hchunked]; simp), if_neg hne]
  generalize (scanHeaders head.headers).cl = cl at *
  have hok : (∃ b, readLength (maxBodyOf req) cl head.body head.source = .ok b) ↔
      cl ≤ maxBodyOf req ∧ head.body.length ≤ cl ∧ cl ≤ head.behind.length := readLength_ok_iff
  constructor
  · intro h
    -- then the body is taken, although a length of `npos` is announced as well
    by_contra hbad
    push Not at hbad
    obtain ⟨hbig, hmax, hlong, hbody⟩ := hbad
    obtain ⟨b, hb⟩ := hok.mpr ⟨hmax, hbody, hlong⟩
    obtain ⟨hb', -⟩ := readLength_ok hb
    have hlen : b.body.length = cl := by
      rw [hb', List.length_take]
      exact min_eq_left hlong
    obtain ⟨hw, -⟩ := h b (hread.trans hb) (by omega)
    -- the bytes taken for `cl` would have to be those of the other length as well
    obtain ⟨hle, heq⟩ := (hwhole _).mp hw npos hbig
    have := congrArg List.length heq
    rw [hlen, List.length_take, min_eq_left hle] at this
    exact hcl this
  · intro h b hb hlimit
    rw [hread] at hb
    obtain ⟨hmax, hbody, hlong⟩ := hok.mp ⟨b, hb⟩
    obtain ⟨hb', -, -, hfailed⟩ := readLength_ok hb
    refine ⟨(hwhole _).mpr fun n hn => ?_, hfailed⟩
    have hnpos : npos ∉ announcedLengths head.headers := by
      rcases h with h | h | h | h
      · exact h
      · omega
      · omega
      · omega
    -- the scan keeps the last length, and only `npos` can be a different one
    have hn' : n = cl := by
      rcases hlengths n hn with h' | h'
      · exact h'
      · exact absurd (h' ▸ hn) hnpos
    rw [hn']
    exact ⟨hlong, hb'⟩

theorem bodyIsWhole_of_close (hlimit : maxBodyOf req < npos)
    (hsome : noBodyStatus req head.httpStatus = false)
    (hchunked : (scanHeaders head.headers).chunked = false)
    (hinvalid : (scanHeaders head.headers).invalid = false)
    (hcl : (scanHeaders head.headers).cl = npos) :
    BodyIsWhole req head ↔ maxBodyOf req < head.behind.length ∨
      (announcedLengths head.headers = [] ∧ head.source.ending = .eof) := by
  have hlengths := (lengthsSeen_scanHeaders head.headers hinvalid).1 hcl
  -- the loop reads to the end of the stream
  have hread : readBody req head (scanHeaders head.headers) =
      readToEnd (maxBodyOf req) head.body head.source := by
    unfold readBody
    dsimp only
    rw [if_neg (by rw [hsome]; simp), if_neg (by rw [hchunked]; simp), if_neg (not_not.mpr hcl)]
    rfl
  have hwrap : maxBodyOf req = npos → head.body ≠ [] := fun h => absurd h hlimit.ne
  -- a body beyond the limit is refused, so nothing is answered with OK
  rcases Nat.lt_or_ge (maxBodyOf req) head.behind.length with hlong | hle
  · refine iff_of_true ?_ (.inl hlong)
    intro b hb _
    exact absurd (hread ▸ hb) (readToEnd_of_lt hlimit.le hwrap hlong b)
  · rw [or_iff_right (not_lt.mpr hle)]
    obtain ⟨rest, hok⟩ := readToEnd_of_le hlimit.le hwrap hle
    rw [← hread] at hok
    have hfailed : decide (head.source.ending = .failure) = false ↔ head.source.ending = .eof := by
      cases head.source.ending <;> simp
    constructor
    · intro h
      obtain ⟨hw, hf⟩ := h _ hok hle
      rw [WholeBody, if_neg (by rw [hsome]; simp), if_neg (by rw [hchunked]; simp)] at hw
      refine ⟨?_, hfailed.mp hf⟩
      -- a field of `2^64 - 1` announces more than the limit lets in
      by_contra hne
      rw [if_neg hne] at hw
      obtain ⟨n, ns, hns⟩ := List.exists_cons_of_ne_nil hne
      have hn : n ∈ announcedLengths head.headers := by rw [hns]; exact List.mem_cons_self ..
      have hge := (hw n hn).1
      rw [hlengths n hn] at hge
      omega
    · rintro ⟨hnone, heof⟩ b hb -
      obtain rfl := Except.ok.inj (hok.symm.trans hb)
      rw [WholeBody, if_neg (by rw [hsome]; simp), if_neg (by rw [hchunked]; simp), if_pos hnone]
      exact ⟨⟨rfl, heof⟩, hfailed.mpr heof⟩

end

/-! ### The reply -/

variable {dial : Dial} {engine : Http1Engine} {req : Request} {source : Source}

/-- The reply is whole when the body phase of the head it comes from is. -/
theorem okIsWhole_iff_bodyIsWhole (hsent : Sent dial engine req source) :
    OkIsWhole dial engine req source ↔ ∀ head, readHead [] 0 [] source = .ok head →
      (scanHeaders head.headers).invalid = false → BodyIsWhole req head := by
  obtain ⟨⟨reused, hreply⟩, -⟩ := request_of_sent hsent
  rw [OkIsWhole, hreply]
  dsimp only
  constructor
  · intro h head hread hinvalid b hb hle
    rw [readResponse_of_ok hread hinvalid hb hle] at h
    obtain ⟨⟨head', hread', hwhole⟩, hfailed⟩ := h rfl
    obtain rfl := Except.ok.inj (hread.symm.trans hread')
    exact ⟨hwhole, hfailed⟩
  · intro h hok
    obtain ⟨head, b, hread, hinvalid, hb, hle⟩ := readResponse_ok hok
    obtain ⟨hwhole, hfailed⟩ := h head hread hinvalid b hb hle
    rw [readResponse_of_ok hread hinvalid hb hle]
    exact ⟨⟨head, hread, hwhole⟩, hfailed⟩

/-- **When OK means whole.**  Under every limit the C interface sets, an OK answer carries the whole
body if and only if the stream ends as the framing announces. -/
theorem okIsWhole_iff {configuredMaxBody : Int32}
    (hlimit : req.maxResponseBodyBytes = Abi.bodyLimit configuredMaxBody)
    (hsent : Sent dial engine req source) :
    OkIsWhole dial engine req source ↔ EndsAsAnnounced req source := by
  have hmax : maxBodyOf req < npos := by
    have := Abi.bodyLimit_le configuredMaxBody
    rw [maxBodyOf, hlimit, npos]
    omega
  rw [okIsWhole_iff_bodyIsWhole hsent, EndsAsAnnounced]
  apply forall_congr'
  intro head
  apply imp_congr_right
  intro _
  apply imp_congr_right
  intro hinvalid
  -- one case per framing
  cases hnone : noBodyStatus req head.httpStatus with
  | true => exact iff_of_true (bodyIsWhole_of_noBody hnone) fun h => by cases h
  | false =>
    cases hchunked : (scanHeaders head.headers).chunked with
    | true => exact iff_of_true (bodyIsWhole_of_chunked hnone hchunked) fun _ h => by cases h
    | false =>
      rw [forall_prop_of_true rfl, forall_prop_of_true rfl]
      split_ifs with hcl
      · exact bodyIsWhole_of_close hmax hnone hchunked hinvalid hcl
      · exact bodyIsWhole_of_length hnone hchunked hinvalid hcl

/-- A response without length, cut off by a failed read after three bytes. -/
def cutOffSource : Source := ⟨[ascii "HTTP/1.1 200 OK\r\n\r\nhel"], .failure⟩

/-- The same response, ended by the peer. -/
def endedSource : Source := ⟨[ascii "HTTP/1.1 200 OK\r\n\r\nhel"], .eof⟩

theorem okIsWhole_endedSource_iff :
    OkIsWhole (dialTo endedSource) {} fiveBytesRequest endedSource ↔
      EndsAsAnnounced fiveBytesRequest endedSource :=
  okIsWhole_iff (show _ = Abi.bodyLimit 5 by decide) (sent_dialTo endedSource)

theorem not_okIsWhole_cutOffSource :
    ¬ OkIsWhole (dialTo cutOffSource) {} fiveBytesRequest cutOffSource := by
  intro h
  have hok : (request (dialTo cutOffSource) {} fiveBytesRequest).1.errCode = .ok := by
    decide +kernel
  have hfailed : (request (dialTo cutOffSource) {} fiveBytesRequest).1.readFailed = true := by
    decide +kernel
  rw [(h hok).2] at hfailed
  cases hfailed

end Http1

end AsterNet
