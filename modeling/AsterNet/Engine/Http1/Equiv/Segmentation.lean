import AsterNet.Engine.Http1.Equiv.Limit
import AsterNet.Engine.Http1.Equiv.Whole

/-!
# How the stream is cut

When an answer does not depend on the pieces in which the stream arrives (`SegmentationFree`).

`HeadOf` reads the header sections off the bytes of a stream, as long as each is `Settled`: what the read
that completes it brings along changes neither its status nor whether it is within the limit.  `bodyOf` is
the body phase on bytes.  `seen_of_headOf` says that every segmentation of a stream gets the answer that is
made of the two, when the body is `BodySettled` as well; `segmentationFree_iff` adds that a body that is not
settled gets different answers.
-/

namespace AsterNet

namespace Http1

open ByteString Segmented Incremental

/-! ### Answers -/

/-- What the caller sees of an answer, and whether the connection is kept. -/
structure Seen where
  errCode : Result
  httpStatus : ℤ
  body : Bytes
  kept : Bool
  deriving DecidableEq, Repr

/-- What is seen of a request. -/
def seen (answer : Reply × Http1Engine) : Seen :=
  ⟨answer.1.errCode, answer.1.httpStatus, answer.1.body, answer.2.connection.isSome⟩

/-- All requests that are sent and get the stream, up to a clean end, see the same. -/
def SegmentationFree (req : Request) (stream : Bytes) : Prop :=
  ∀ dial engine source dial' engine' source',
    Sent dial engine req source → source.bytes = stream → source.ending = .eof →
    Sent dial' engine' req source' → source'.bytes = stream → source'.ending = .eof →
    seen (request dial engine req) = seen (request dial' engine' req)

/-! ### The stream without its pieces -/

/-- A stream behind its header sections. -/
structure Split where
  httpStatus : ℤ
  headers : Bytes
  behind : Bytes
  deriving DecidableEq, Repr

/-- The section that ends at `headerEnd` is within the limit and has this status, whatever the read that
completes it brings along. -/
structure Settled (httpStatus : ℤ) (stream : Bytes) (headerEnd : ℕ) (status : ℤ) : Prop where
  found : find emptyLineMark stream = some headerEnd
  fits : headerEnd + 4 + min (stream.drop (headerEnd + 4)).length (bufSize - 1) ≤ kMaxResponseHeaders
  status : ∀ t, t <+: stream.drop (headerEnd + 4) → t.length < bufSize →
    parseStatus (stream.take (headerEnd + 4) ++ t) httpStatus = status

/-- The header phase over a stream of settled sections: the status it gives up with, or what it finds. -/
inductive HeadOf : ℤ → Bytes → Except ℤ Split → Prop
  | noEnd {httpStatus : ℤ} {stream : Bytes} (h : find emptyLineMark stream = none) :
    HeadOf httpStatus stream (.error httpStatus)
  | tooLong {httpStatus : ℤ} {stream : Bytes} {headerEnd : ℕ}
    (hf : find emptyLineMark stream = some headerEnd) (hlong : kMaxResponseHeaders < headerEnd + 4) :
    HeadOf httpStatus stream (.error httpStatus)
  | interim {httpStatus status : ℤ} {stream : Bytes} {headerEnd : ℕ} {outcome : Except ℤ Split}
    (h : Settled httpStatus stream headerEnd status) (hstatus : status.tdiv 100 = 1)
    (later : HeadOf status (stream.drop (headerEnd + 4)) outcome) : HeadOf httpStatus stream outcome
  | final {httpStatus status : ℤ} {stream : Bytes} {headerEnd : ℕ}
    (h : Settled httpStatus stream headerEnd status) (hstatus : status.tdiv 100 ≠ 1) :
    HeadOf httpStatus stream
      (.ok ⟨status, stream.take headerEnd, stream.drop (headerEnd + 4)⟩)

/-- What is made of an answer of the decoder. -/
def judgeDecoded (maxBody : ℕ) : ChunkParseResult → Except Result Bytes
  | .complete decoded _ => if maxBody < decoded.length then .error .errBufferTooSmall else .ok decoded
  | _ => .error .errProtocol

/-- The chunked framing: what the decoder makes of the part within the limit. -/
def chunkedOf (maxBody : ℕ) (behind : Bytes) : Except Result Bytes :=
  let result := decodeChunked (behind.take (codedLimit maxBody)) []
  if result = .incomplete ∧ codedLimit maxBody < behind.length then .error .errBufferTooSmall
  else judgeDecoded maxBody result

/-- The body phase. -/
def bodyOf (req : Request) (split : Split) : Except Result Bytes :=
  let scan := scanHeaders split.headers
  if noBodyStatus req split.httpStatus then .ok []
  else if scan.chunked then chunkedOf (maxBodyOf req) split.behind
  else if scan.cl ≠ npos then
    if maxBodyOf req < scan.cl then .error .errBufferTooSmall
    else if split.behind.length < scan.cl then .error .errProtocol
    else .ok (split.behind.take scan.cl)
  else if maxBodyOf req < split.behind.length then .error .errBufferTooSmall
  else .ok split.behind

/-- The answer. -/
def answerOf (req : Request) : Except ℤ Split → Seen
  | .error status => ⟨.errProtocol, status, [], false⟩
  | .ok split =>
    let scan := scanHeaders split.headers
    if scan.invalid then ⟨.errProtocol, split.httpStatus, [], false⟩
    else match bodyOf req split with
      | .error code => ⟨code, split.httpStatus, [], false⟩
      | .ok body => ⟨.ok, split.httpStatus, body,
          !(scan.connectionClose || noBodyStatus req split.httpStatus ||
            (!scan.chunked && scan.cl == npos))⟩

/-- The first definite answer of the decoder within the limit comes so early that the read that brings it
stays within the limit, or is a body beyond the limit. -/
def ChunkedSettled (maxBody : ℕ) (behind : Bytes) : Prop :=
  ∀ p rest, behind = p ++ rest → FirstAnswer (fun raw => decodeChunked raw []) p →
    p.length ≤ codedLimit maxBody →
    p.length + min rest.length (bufSize - 1) ≤ codedLimit maxBody ∨
      ∃ decoded tail, decodeChunked p [] = .complete decoded tail ∧ maxBody < decoded.length

/-- The read that completes the final section can bring along no more than the framing lets it: nothing for a
response without body, nothing beyond an announced length; and under the largest limit a body to the end of
the stream does not start with a read of `0` bytes. -/
def BodySettled (req : Request) (split : Split) : Prop :=
  let scan := scanHeaders split.headers
  scan.invalid = false →
    if noBodyStatus req split.httpStatus then split.behind = []
    else if scan.chunked then ChunkedSettled (maxBodyOf req) split.behind
    else if scan.cl ≠ npos then
      maxBodyOf req < scan.cl ∨ split.behind.length ≤ scan.cl ∨ bufSize ≤ scan.cl + 1
    else maxBodyOf req = npos → split.behind = []

/-! ### The header phase -/

/-- The header phase and the one on bytes come to the same. -/
def Agrees : Except ℤ Split → Except HeadFailure Head → Prop
  | .error status, .error failure => failure.httpStatus = status
  | .ok split, .ok head => head.httpStatus = split.httpStatus ∧ head.headers = split.headers ∧
      head.behind = split.behind ∧ head.body.length < bufSize
  | .error _, .ok _ => False
  | .ok _, .error _ => False

/-- The read that reaches a position, and what it brings along: less than one read, like what is there before
it. -/
theorem exists_read {raw : Bytes} {source : Source} {k : ℕ} (hk : k ≤ (raw ++ source.bytes).length)
    (hraw : raw.length < bufSize) : ∃ d rest t, FirstAt bufSize source (k - raw.length) d rest ∧
      raw ++ d = (raw ++ source.bytes).take k ++ t ∧ t ++ rest.bytes = (raw ++ source.bytes).drop k ∧
      t.length < bufSize := by
  rw [List.length_append] at hk
  obtain ⟨d, rest, hfirst, hlt⟩ := FirstAt.exists_of_le (n := bufSize) (s := source)
    (k := k - raw.length) (by decide) (by omega)
  have hle : k ≤ (raw ++ d).length := by
    have := hfirst.le
    rw [List.length_append]
    omega
  have hall : raw ++ source.bytes = (raw ++ d) ++ rest.bytes := by
    rw [hfirst.reads.bytes_eq, List.append_assoc]
  refine ⟨d, rest, (raw ++ d).drop k, hfirst, ?_, ?_, ?_⟩
  · rw [hall, List.take_append_of_le_length hle, List.take_append_drop]
  · rw [hall, List.drop_append_of_le_length hle]
  · rw [List.length_drop, List.length_append]
    rcases Nat.lt_or_ge raw.length k with hbefore | hthere
    · omega
    · -- nothing was read
      have := hfirst.first [] source (.done source) (by omega)
      rw [List.length_nil] at this
      omega

/-- A settled section is read as such, whatever comes along. -/
theorem readHead_of_settled {httpStatus status : ℤ} {headerEnd : ℕ} {raw : Bytes} {source : Source}
    (h : Settled httpStatus (raw ++ source.bytes) headerEnd status) (hraw : raw.length < bufSize)
    (sections : List Bytes) :
    ∃ sections' t rest, t ++ rest.bytes = (raw ++ source.bytes).drop (headerEnd + 4) ∧
      t.length < bufSize ∧ readHead sections httpStatus raw source =
        if status.tdiv 100 = 1 then readHead sections' status t rest
        else .ok ⟨sections', status, (raw ++ source.bytes).take headerEnd, t, rest⟩ := by
  have hend : headerEnd + 4 ≤ (raw ++ source.bytes).length := find_add_length_le h.found
  -- the read that brings the end of the section brings less than a buffer beyond it
  obtain ⟨d, rest, t, hfirst, hbuf, hbehind, hlt⟩ := exists_read hend hraw
  have htake : ((raw ++ source.bytes).take (headerEnd + 4)).length = headerEnd + 4 :=
    List.length_take_of_le hend
  have hfits : (raw ++ d).length ≤ kMaxResponseHeaders := by
    have hmost := h.fits
    have := congrArg List.length hbehind
    rw [List.length_append] at this
    rw [hbuf, List.length_append, htake]
    omega
  -- so it stays within the limit, and the loop goes by what it brought
  have hread := (@readHead_of_firstAt sections httpStatus raw d source rest headerEnd h.found hfirst).2
    hfits
  have hdrop : (raw ++ d).drop (headerEnd + 4) = t := by
    rw [hbuf]
    exact List.drop_left' htake
  have hheaders : (raw ++ d).take headerEnd = (raw ++ source.bytes).take headerEnd := by
    rw [hbuf, List.take_append_of_le_length (by omega), List.take_take, min_eq_left (by omega)]
  rw [hdrop, hheaders, hbuf, h.status t ⟨_, hbehind⟩ hlt] at hread
  exact ⟨_, t, rest, hbehind, hlt, hread⟩

/-- **The header phase over settled sections** is the one on bytes, in every segmentation.  The buffer holds
less than one read when a section begins. -/
theorem agrees_readHead {httpStatus : ℤ} {stream : Bytes} {outcome : Except ℤ Split}
    (h : HeadOf httpStatus stream outcome) (sections : List Bytes) {raw : Bytes} {source : Source}
    (hb : raw ++ source.bytes = stream) (hraw : raw.length < bufSize) :
    Agrees outcome (readHead sections httpStatus raw source) := by
  -- the induction is on the sections of the outcome
  induction h generalizing sections raw source with
  | noEnd h =>
    obtain ⟨readFailed, herror⟩ := @readHead_of_find_none sections _ raw source (by rw [hb, h])
    rw [herror]
    rfl
  | @tooLong _ _ headerEnd hf hlong =>
    subst hb
    have hend : headerEnd + 4 ≤ (raw ++ source.bytes).length := find_add_length_le hf
    obtain ⟨d, rest, t, hfirst, -⟩ := exists_read hend hraw
    have hover : kMaxResponseHeaders < (raw ++ d).length := by
      have := hfirst.le
      rw [List.length_append]
      omega
    obtain ⟨readFailed, herror⟩ := (@readHead_of_firstAt sections _ raw d source rest headerEnd hf hfirst).1 hover
    rw [herror]
    rfl
  | interim h hstatus later ih =>
    subst hb
    obtain ⟨sections', t, rest, hbehind, hlt, hread⟩ := readHead_of_settled h hraw sections
    rw [hread, if_pos hstatus]
    exact ih sections' hbehind hlt
  | final h hstatus =>
    subst hb
    obtain ⟨sections', t, rest, hbehind, hlt, hread⟩ := readHead_of_settled h hraw sections
    rw [hread, if_neg hstatus]
    exact ⟨rfl, rfl, hbehind, hlt⟩

/-! ### The body phase -/

/-- What is seen of the body phase. -/
def judged : Except BodyFailure Body → Except Result Bytes
  | .ok b => .ok b.body
  | .error failure => .error failure.errCode

theorem judged_takeNoBody (body : Bytes) (source : Source) :
    judged (takeNoBody body source) = if body = [] then .ok [] else .error .errProtocol := by
  unfold takeNoBody
  by_cases h : body = []
  · rw [if_neg (not_not.mpr h), if_pos h]
    rfl
  · rw [if_pos h, if_neg h]
    rfl

theorem judged_readLength (maxBody cl : ℕ) (body : Bytes) (source : Source) :
    judged (readLength maxBody cl body source) =
      if maxBody < cl then .error .errBufferTooSmall
      else if cl < body.length ∨ (body ++ source.bytes).length < cl then .error .errProtocol
      else .ok ((body ++ source.bytes).take cl) := by
  by_cases hmax : maxBody < cl
  · rw [readLength, if_pos hmax, if_pos hmax]
    rfl
  rw [if_neg hmax]
  cases hread : readLength maxBody cl body source with
  | ok b =>
    obtain ⟨-, hbody, hlong⟩ := readLength_ok_iff.mp ⟨b, hread⟩
    rw [if_neg (by omega), judged, (readLength_ok hread).1]
  | error failure =>
    have hnot : ¬ (cl ≤ maxBody ∧ body.length ≤ cl ∧ cl ≤ (body ++ source.bytes).length) := by
      rw [← @readLength_ok_iff maxBody cl body source, hread]
      rintro ⟨b, ⟨⟩⟩
    rw [if_pos (by omega)]
    -- but for the limit it refuses for one reason
    unfold readLength at hread
    dsimp only at hread
    rw [if_neg hmax] at hread
    split_ifs at hread <;> (obtain rfl := Except.error.inj hread; rfl)

theorem judged_readToEnd {maxBody : ℕ} {body : Bytes} (source : Source) (hmax : maxBody ≤ npos)
    (h : maxBody = npos → body ≠ []) : judged (readToEnd maxBody body source) =
      if maxBody < (body ++ source.bytes).length then .error .errBufferTooSmall
      else .ok (body ++ source.bytes) := by
  rcases Nat.lt_or_ge maxBody (body ++ source.bytes).length with hlong | hle
  · obtain ⟨failure, hread, hcode⟩ := readToEnd_error (readToEnd_of_lt hmax h hlong)
    rw [if_pos hlong, hread, judged, hcode]
  · obtain ⟨rest, hread⟩ := readToEnd_of_le hmax h hle
    rw [if_neg (not_lt.mpr hle), hread]
    rfl

section Chunked

variable {maxBody : ℕ} {body p d : Bytes} {source after : Source}

/-- A buffer beyond the limit is refused for it. -/
theorem readChunked_of_lt
    (hlong : codedLimit maxBody <
      (readWhile (chunkedPending maxBody) (fun _ => bufSize) body source).1.length) :
    judged (readChunked maxBody body source) = .error .errBufferTooSmall := by
  unfold readChunked
  dsimp only
  rw [if_neg (not_le.mpr hlong), if_pos hlong]
  rfl

/-- More input changes nothing about a definite answer. -/
theorem judgeDecoded_append (h : decodeChunked p [] ≠ .incomplete) (t : Bytes) :
    judgeDecoded maxBody (decodeChunked (p ++ t) []) = judgeDecoded maxBody (decodeChunked p []) := by
  cases hp : decodeChunked p [] with
  | incomplete => exact absurd hp h
  | invalid => rw [lawful_decodeChunked.append_invalid hp t]
  | complete decoded rest =>
    rw [lawful_decodeChunked.append_complete hp t]
    rfl

/-- The chunked framing when the first definite answer is within the limit: all depends on whether the read
that brings it stays within the limit, too. -/
theorem judged_readChunked_of_firstAt (hpre : p <+: body ++ source.bytes)
    (hanswer : FirstAnswer (fun raw => decodeChunked raw []) p) (hfits : p.length ≤ codedLimit maxBody)
    (hfirst : FirstAt bufSize source (p.length - body.length) d after) :
    judged (readChunked maxBody body source) =
      if codedLimit maxBody < (body ++ d).length then .error .errBufferTooSmall
      else judgeDecoded maxBody (decodeChunked p []) := by
  have hread : readWhile (chunkedPending maxBody) (fun _ => bufSize) body source = (body ++ d, after) :=
    lawful_decodeChunked.readWhile_of_firstAt hpre hanswer hfits hfirst
  split_ifs with hlong
  · exact readChunked_of_lt (by rwa [hread])
  obtain ⟨t, ht⟩ : p <+: body ++ d := by
    apply List.prefix_of_prefix_length_le hpre
    · rw [hfirst.reads.bytes_eq, ← List.append_assoc]
      exact List.prefix_append _ _
    · have := hfirst.le
      rw [List.length_append]
      omega
  -- the read that brings the answer ends the loop
  obtain ⟨readFailed, hchunked⟩ := readChunked_of_read hread (not_lt.mp hlong)
  rw [hchunked, ← judgeDecoded_append hanswer.definite t, ht]
  cases decodeChunked (body ++ d) [] with
  | incomplete => rfl
  | invalid => rfl
  | complete decoded rest =>
    dsimp only [judgeDecoded]
    split_ifs <;> rfl

/-- **The chunked framing over a settled coding** is the one on bytes, in every segmentation. -/
theorem judged_readChunked (h : ChunkedSettled maxBody (body ++ source.bytes))
    (hbody : body.length < bufSize) :
    judged (readChunked maxBody body source) = chunkedOf maxBody (body ++ source.bytes) := by
  unfold chunkedOf
  dsimp only
  by_cases hinc : decodeChunked ((body ++ source.bytes).take (codedLimit maxBody)) [] = .incomplete
  · -- no answer within the limit
    have hall : ∀ p, p <+: body ++ source.bytes → p.length ≤ codedLimit maxBody →
        decodeChunked p [] = .incomplete := by
      intro p hp hle
      by_contra hdef
      obtain ⟨t, ht⟩ := List.prefix_take_iff.mpr ⟨hp, hle⟩
      exact lawful_decodeChunked.append_ne_incomplete hdef t (ht ▸ hinc)
    have hend := readWhile_of_incomplete (n := bufSize) (by decide) hall
    change codedLimit maxBody < (readWhile (chunkedPending maxBody) (fun _ => bufSize) body source).1.length
      ∨ (readWhile (chunkedPending maxBody) (fun _ => bufSize) body source).1 = body ++ source.bytes at hend
    have hpre : (readWhile (chunkedPending maxBody) (fun _ => bufSize) body source).1.length ≤
        (body ++ source.bytes).length := by
      rw [← readWhile_bytes (chunkedPending maxBody) (fun _ => bufSize) body source, List.length_append]
      omega
    -- the stream is longer than the limit, or it ends
    rcases Nat.lt_or_ge (codedLimit maxBody)
        (readWhile (chunkedPending maxBody) (fun _ => bufSize) body source).1.length with hlong | hle
    · rw [readChunked_of_lt hlong, if_pos ⟨hinc, by omega⟩]
    · have heq := hend.resolve_left (not_lt.mpr hle)
      rw [heq] at hle
      rw [if_neg fun hand => absurd hand.2 (not_lt.mpr hle), hinc]
      obtain ⟨readFailed, hchunked⟩ := readChunked_of_read (Prod.ext heq rfl) hle
      rw [List.take_of_length_le hle] at hinc
      rw [hchunked, hinc]
      rfl
  · rw [if_neg fun hand => hinc hand.1]
    -- the first definite answer within the limit, and the read that brings it
    obtain ⟨p, hp, hanswer⟩ := @exists_firstAnswer _ (fun raw => decodeChunked raw []) _ hinc
    have hfits : p.length ≤ codedLimit maxBody := by
      have hle := hp.length_le
      rw [List.length_take] at hle
      exact hle.trans (Nat.min_le_left _ _)
    have hpre := hp.trans (List.take_prefix _ _)
    obtain ⟨t, ht⟩ := hp
    rw [← ht, judgeDecoded_append hanswer.definite]
    obtain ⟨d, after, u, hfirst, hbuf, hbehind, hlt⟩ := exists_read hpre.length_le hbody
    rw [judged_readChunked_of_firstAt hpre hanswer hfits hfirst]
    have hsplit : body ++ source.bytes = p ++ (body ++ source.bytes).drop p.length :=
      (List.prefix_iff_eq_append.mp hpre).symm
    -- the settled codings: there is room for one read, or the body is too long anyway
    rcases h p _ hsplit hanswer hfits with hsettled | ⟨decoded, tail, hcomplete, hmax⟩
    · refine if_neg (not_lt.mpr ?_)
      have hbufLength := congrArg List.length hbuf
      have hbehindLength := congrArg List.length hbehind
      rw [List.length_append] at hbehindLength
      rw [hbufLength, List.length_append, List.length_take_of_le hpre.length_le]
      omega
    · -- the body is beyond the limit in any case
      rw [hcomplete, judgeDecoded, if_pos hmax, ite_self]

end Chunked

/-- The body phase behind a head that agrees with the one on bytes. -/
theorem readBody_of_agrees {req : Request} {head : Head} {split : Split}
    (h : Agrees (.ok split) (.ok head)) : readBody req head (scanHeaders head.headers) =
      if noBodyStatus req split.httpStatus then takeNoBody head.body head.source
      else if (scanHeaders split.headers).chunked then
        readChunked (maxBodyOf req) head.body head.source
      else if (scanHeaders split.headers).cl ≠ npos then
        readLength (maxBodyOf req) (scanHeaders split.headers).cl head.body head.source
      else readToEnd (maxBodyOf req) head.body head.source := by
  rw [← h.1, ← h.2.1]
  rfl

/-- **The body phase over a settled body** is the one on bytes, in every segmentation. -/
theorem judged_readBody {req : Request} {head : Head} {split : Split}
    (hagrees : Agrees (.ok split) (.ok head)) (hvalid : (scanHeaders split.headers).invalid = false)
    (h : BodySettled req split) :
    judged (readBody req head (scanHeaders head.headers)) = bodyOf req split := by
  have hread := @readBody_of_agrees req head split hagrees
  obtain ⟨-, -, hbehind, hbody⟩ := hagrees
  have hsettled := h hvalid
  have hlength : head.body.length ≤ split.behind.length := by
    rw [← hbehind, Head.behind, List.length_append]
    omega
  unfold bodyOf
  dsimp only at hsettled ⊢
  rw [hread]
  -- no body, a coding, a length or the end of the stream, in the order of the code
  by_cases hnone : noBodyStatus req split.httpStatus = true
  · rw [if_pos hnone] at hsettled
    rw [if_pos hnone, if_pos hnone, judged_takeNoBody]
    rw [← hbehind, Head.behind, List.append_eq_nil_iff] at hsettled
    rw [if_pos hsettled.1]
  rw [if_neg hnone] at hsettled
  rw [if_neg hnone, if_neg hnone]
  by_cases hchunked : (scanHeaders split.headers).chunked = true
  · rw [if_pos hchunked] at hsettled
    rw [if_pos hchunked, if_pos hchunked, ← hbehind]
    exact judged_readChunked (by rw [← hbehind] at hsettled; exact hsettled) hbody
  rw [if_neg hchunked] at hsettled
  rw [if_neg hchunked, if_neg hchunked]
  by_cases hcl : (scanHeaders split.headers).cl ≠ npos
  · rw [if_pos hcl] at hsettled
    rw [if_pos hcl, if_pos hcl, judged_readLength, ← hbehind, Head.behind]
    rw [← hbehind, Head.behind] at hsettled hlength
    by_cases hmax : maxBodyOf req < (scanHeaders split.headers).cl
    · rw [if_pos hmax, if_pos hmax]
    rw [if_neg hmax, if_neg hmax]
    by_cases hshort : (head.body ++ head.source.bytes).length < (scanHeaders split.headers).cl
    · rw [if_pos hshort, if_pos (.inr hshort)]
    · -- what the header phase read is no more than the length
      have hnot : ¬ (scanHeaders split.headers).cl < head.body.length := by omega
      rw [if_neg hshort, if_neg (not_or.mpr ⟨hnot, hshort⟩)]
  · rw [if_neg hcl] at hsettled
    rw [if_neg hcl, if_neg hcl, ← hbehind]
    rw [← hbehind, Head.behind] at hsettled
    by_cases hwrap : maxBodyOf req = npos
    · -- then there is nothing to read
      have hnil := hsettled hwrap
      obtain ⟨readFailed, hread, -⟩ := readToEnd_of_wrap head.source
      have hbodyNil : head.body = [] := (List.append_eq_nil_iff.mp hnil).1
      rw [hwrap, hbodyNil, hread, Head.behind, hnil]
      rfl
    · exact judged_readToEnd head.source (maxBodyOf_le req) fun h => absurd h hwrap

/-! ### The answer -/

section

variable {dial : Dial} {engine : Http1Engine} {req : Request} {source : Source}

/-- What is seen of a request that was sent. -/
theorem seen_of_sent (h : Sent dial engine req source) : seen (request dial engine req) =
    ⟨(readResponse req source).1.errCode, (readResponse req source).1.httpStatus,
      (readResponse req source).1.body, (readResponse req source).2.isSome⟩ := by
  obtain ⟨⟨reused, hreply⟩, hconnection⟩ := request_of_sent h
  rw [seen, hreply, ← hconnection, Option.isSome_map]

theorem seen_of_error (h : Sent dial engine req source) {failure : HeadFailure}
    (hread : readHead [] 0 [] source = .error failure) :
    seen (request dial engine req) = ⟨.errProtocol, failure.httpStatus, [], false⟩ := by
  rw [seen_of_sent h, readResponse, hread]
  rfl

theorem seen_of_invalid (h : Sent dial engine req source) {head : Head}
    (hread : readHead [] 0 [] source = .ok head) (hinvalid : (scanHeaders head.headers).invalid = true) :
    seen (request dial engine req) = ⟨.errProtocol, head.httpStatus, [], false⟩ := by
  rw [seen_of_sent h, readResponse, hread]
  dsimp only
  rw [if_pos hinvalid]
  rfl

/-- What is seen behind a section is what is seen of the body phase. -/
theorem seen_of_head (h : Sent dial engine req source) {head : Head}
    (hread : readHead [] 0 [] source = .ok head) (hvalid : (scanHeaders head.headers).invalid = false) :
    seen (request dial engine req) =
      match judged (readBody req head (scanHeaders head.headers)) with
      | .error code => ⟨code, head.httpStatus, [], false⟩
      | .ok body => ⟨.ok, head.httpStatus, body,
          keepsConnection req head (scanHeaders head.headers)⟩ := by
  rw [seen_of_sent h]
  cases hb : readBody req head (scanHeaders head.headers) with
  | error failure =>
    rw [readResponse, hread]
    dsimp only
    rw [if_neg (by rw [hvalid]; simp), hb]
    rfl
  | ok b =>
    rw [readResponse_of_ok hread hvalid hb (length_le_of_readBody hb), judged]
    dsimp only
    split_ifs with hkept
    · rw [hkept]
      rfl
    · rw [Bool.not_eq_true] at hkept
      rw [hkept]
      rfl

/-- **Every segmentation gets the answer to the bytes**, when the sections and the body are settled. -/
theorem seen_of_headOf (hsent : Sent dial engine req source) {outcome : Except ℤ Split}
    (hhead : HeadOf 0 source.bytes outcome)
    (hbody : ∀ split, outcome = .ok split → BodySettled req split) :
    seen (request dial engine req) = answerOf req outcome := by
  have hagrees := @agrees_readHead 0 source.bytes outcome hhead [] [] source rfl (by decide)
  -- the header phase ends the same way on the bytes and on the source
  cases outcome with
  | error status =>
    cases hread : readHead [] 0 [] source with
    | error failure =>
      rw [hread] at hagrees
      have hstatus : failure.httpStatus = status := hagrees
      rw [seen_of_error hsent hread, hstatus]
      rfl
    | ok head =>
      rw [hread] at hagrees
      exact absurd hagrees id
  | ok split =>
    cases hread : readHead [] 0 [] source with
    | error failure =>
      rw [hread] at hagrees
      exact absurd hagrees id
    | ok head =>
      rw [hread] at hagrees
      obtain ⟨hstatus, hheaders, -⟩ := id hagrees
      cases hinvalid : (scanHeaders split.headers).invalid with
      | true =>
        rw [seen_of_invalid hsent hread (by rw [hheaders, hinvalid]), hstatus, answerOf]
        rw [if_pos hinvalid]
      | false =>
        rw [seen_of_head hsent hread (by rw [hheaders, hinvalid]),
          judged_readBody hagrees hinvalid (hbody split rfl), answerOf]
        rw [if_neg (by rw [hinvalid]; simp)]
        cases bodyOf req split with
        | error code => rw [hstatus]
        | ok body =>
          dsimp only
          rw [keepsConnection, hheaders, hstatus]

end

/-! ### Streams that are cut differently -/

/-- The request can be sent at all. -/
def Sendable (req : Request) : Prop := ∃ dial engine source, Sent dial engine req source

/-- Then it can get every stream. -/
theorem Sendable.sent {req : Request} (h : Sendable req) (source : Source) :
    Sent (dialTo source) {} req source := by
  obtain ⟨dial, engine, source', hclean, key, ssl, reused, custom, ssl', -, hcustom, -, -⟩ := h
  obtain ⟨written, hwritten⟩ := @writeAll_isSome (requestText req custom) { source := source } (by simp)
  exact ⟨hclean, _, _, false, custom, written, rfl, hcustom, hwritten, rfl⟩

section

variable {stream : Bytes} {split : Split}

/-- The read that completes the final section. -/
theorem firstAt_of_readHead {source : Source} {head : Head} (h : readHead [] 0 [] source = .ok head) :
    FirstAt bufSize source head.sections.flatten.length (head.sections.flatten ++ head.body)
      head.source := by
  have spec := readHead_spec h
  obtain ⟨d, hreads, hd⟩ := spec.reads
  simp only [List.flatten_nil, List.nil_append] at hd
  subst hd
  refine ⟨hreads, by rw [List.length_append]; omega, fun e mid he hle => ?_⟩
  by_contra hlt
  have hbefore := spec.boundary e mid he
  simp only [List.flatten_nil, List.nil_append] at hbefore
  have := hbefore (not_le.mp hlt)
  omega

/-- Every source of the stream has the head. -/
theorem exists_head (h : HeadOf 0 stream (.ok split)) {source : Source} (hb : source.bytes = stream) :
    ∃ head, readHead [] 0 [] source = .ok head ∧ Agrees (.ok split) (.ok head) ∧
      stream = head.sections.flatten ++ split.behind ∧ 0 < head.sections.flatten.length := by
  have hagrees := @agrees_readHead 0 stream (.ok split) h [] [] source hb (by decide)
  cases hread : readHead [] 0 [] source with
  | error failure =>
    rw [hread] at hagrees
    exact absurd hagrees id
  | ok head =>
    rw [hread] at hagrees
    have spec := readHead_spec hread
    refine ⟨head, rfl, hagrees, ?_, ?_⟩
    · have hbytes := spec.bytes
      simp only [List.flatten_nil, List.nil_append, List.append_assoc] at hbytes
      rw [← hb, ← hbytes, ← hagrees.2.2.1]
      rfl
    · have hle := (List.sublist_flatten_of_mem (List.mem_of_getLast? spec.last)).length_le
      rw [List.length_append] at hle
      exact lt_of_lt_of_le (by simp [emptyLineMark]) hle

/-- **A stream can be cut** so that a read brings the last byte of the final section, or of a part `p` behind
it, together with `t`; before that it is read byte by byte. -/
theorem exists_cut (h : HeadOf 0 stream (.ok split)) {p t rest : Bytes}
    (hsplit : split.behind = p ++ (t ++ rest)) (ht : t.length < bufSize) :
    ∃ source head, source.bytes = stream ∧ source.ending = .eof ∧ readHead [] 0 [] source = .ok head ∧
      Agrees (.ok split) (.ok head) ∧ (p = [] → head.body = t) ∧
      (p ≠ [] → head.body = [] ∧ ∃ after, FirstAt bufSize head.source p.length (p ++ t) after) := by
  -- something stands in front of the body
  obtain ⟨front, hstream, hpos⟩ : ∃ front : Bytes, stream = front ++ split.behind ∧ 0 < front.length := by
    obtain ⟨head, -, -, hstream, hpos⟩ := @exists_head stream split h ⟨[stream], .eof⟩ (by simp [Source.bytes])
    exact ⟨_, hstream, hpos⟩
  have hlength := congrArg List.length hstream
  rw [hsplit, List.length_append, List.length_append, List.length_append] at hlength
  -- byte by byte up to the cut, and one read over it
  obtain ⟨source, hbytes, hending, hbefore, last, hlast⟩ := @exists_boundaries bufSize
    (front.length + p.length - 1) (front.length + p.length + t.length) stream (by omega) (by omega) (by omega)
  obtain ⟨head, hread, hagrees, hhead, -⟩ := exists_head h hbytes
  have hfirst := firstAt_of_readHead hread
  -- the head is read at the same place in every source
  have hfront : head.sections.flatten = front := List.append_cancel_right (hhead.symm.trans hstream)
  have htake : stream.take (front.length + p.length + t.length) = front ++ (p ++ t) := by
    have hall : stream = (front ++ (p ++ t)) ++ rest := by
      rw [hstream, hsplit]
      simp only [List.append_assoc]
    rw [hall]
    apply List.take_left'
    rw [List.length_append, List.length_append]
    omega
  rw [hfront] at hfirst
  rw [htake] at hlast
  refine ⟨source, head, hbytes, hending, hread, hagrees, ?_, ?_⟩
  -- the cut is at the end of the head, or behind it in the body
  · rintro rfl
    have hk : front.length + ([] : Bytes).length - 1 + 1 = front.length := by
      rw [List.length_nil]
      omega
    rw [hk, List.nil_append] at hlast
    exact List.append_cancel_left (hfirst.unique hlast).1
  · intro hp
    have hlen := List.length_pos_of_ne_nil hp
    obtain ⟨after, hends⟩ := hbefore front.length (by omega)
    have hbody : head.body = [] := by
      have heq := (hfirst.unique hends).1
      rw [hstream, List.take_left] at heq
      exact List.append_right_eq_self.mp heq
    rw [hbody, List.append_nil] at hfirst
    obtain ⟨e, he, hbehind⟩ := hlast.behind hfirst.reads (by rw [List.length_append]; omega)
    rw [List.append_cancel_left_eq] at he
    subst he
    refine ⟨hbody, last, ?_⟩
    have hk : front.length + p.length - 1 + 1 - front.length = p.length := by omega
    rwa [hk] at hbehind

/-- Where nothing depends on the pieces, the body phase of one source is that of every other. -/
theorem judged_eq_of_segmentationFree {req : Request} {source source' : Source} {head head' : Head}
    (hfree : SegmentationFree req stream) (hsend : Sendable req)
    (hvalid : (scanHeaders split.headers).invalid = false)
    (hbytes : source.bytes = stream) (hending : source.ending = .eof)
    (hread : readHead [] 0 [] source = .ok head) (hagrees : Agrees (.ok split) (.ok head))
    (hbytes' : source'.bytes = stream) (hending' : source'.ending = .eof)
    (hread' : readHead [] 0 [] source' = .ok head') (hagrees' : Agrees (.ok split) (.ok head')) :
    judged (readBody req head (scanHeaders head.headers)) =
      judged (readBody req head' (scanHeaders head'.headers)) := by
  -- no error of the body phase is OK
  have hne : ∀ {head : Head}, judged (readBody req head (scanHeaders head.headers)) ≠ .error .ok := by
    intro head
    cases hb : readBody req head (scanHeaders head.headers) with
    | ok b => simp [judged]
    | error failure => simpa [judged] using readBody_error hb
  -- both sources are answered alike, so their bodies are
  have hsame := hfree _ _ source _ _ source' (hsend.sent source) hbytes hending (hsend.sent source')
    hbytes' hending'
  rw [seen_of_head (hsend.sent source) hread (by rw [hagrees.2.1, hvalid]),
    seen_of_head (hsend.sent source') hread' (by rw [hagrees'.2.1, hvalid])] at hsame
  -- two errors are the same, two bodies are the same, and one of each would differ
  cases hj : judged (readBody req head (scanHeaders head.headers)) with
  | error code =>
    cases hj' : judged (readBody req head' (scanHeaders head'.headers)) with
    | error code' =>
      rw [hj, hj'] at hsame
      rw [(Seen.mk.inj hsame).1]
    | ok body' =>
      rw [hj, hj'] at hsame
      rw [(Seen.mk.inj hsame).1] at hj
      exact absurd hj hne
  | ok body =>
    cases hj' : judged (readBody req head' (scanHeaders head'.headers)) with
    | error code' =>
      rw [hj, hj'] at hsame
      rw [← (Seen.mk.inj hsame).1] at hj'
      exact absurd hj' hne
    | ok body' =>
      rw [hj, hj'] at hsame
      rw [(Seen.mk.inj hsame).2.2.1]

/-- The body phase judges alike a stream of which a read ends with `p`, and one of which that read brings along
`t`. -/
def CutAlike (req : Request) (split : Split) : Prop :=
  ∀ p t rest : Bytes, split.behind = p ++ (t ++ rest) → t.length < bufSize →
    ∃ head head', Agrees (.ok split) (.ok head) ∧ Agrees (.ok split) (.ok head') ∧
      judged (readBody req head (scanHeaders head.headers)) =
        judged (readBody req head' (scanHeaders head'.headers)) ∧
      (p = [] → head.body = [] ∧ head'.body = t) ∧
      (p ≠ [] → head.body = [] ∧ head'.body = [] ∧
        (∃ after, FirstAt bufSize head.source p.length p after) ∧
        ∃ after, FirstAt bufSize head'.source p.length (p ++ t) after)

theorem cutAlike_of_segmentationFree {req : Request} (hsend : Sendable req)
    (hhead : HeadOf 0 stream (.ok split)) (hfree : SegmentationFree req stream)
    (hvalid : (scanHeaders split.headers).invalid = false) : CutAlike req split := by
  intro p t rest hsplit ht
  obtain ⟨source, head, hb, he, hread, hagrees, hnil, hcons⟩ :=
    @exists_cut stream split hhead p [] (t ++ rest) hsplit (by decide)
  obtain ⟨source', head', hb', he', hread', hagrees', hnil', hcons'⟩ := exists_cut hhead hsplit ht
  refine ⟨head, head', hagrees, hagrees', ?_, fun h => ⟨hnil h, hnil' h⟩, fun h => ?_⟩
  · exact judged_eq_of_segmentationFree hfree hsend hvalid hb he hread hagrees hb' he' hread' hagrees'
  · obtain ⟨hbody, hfirst⟩ := hcons h
    obtain ⟨hbody', hfirst'⟩ := hcons' h
    rw [List.append_nil] at hfirst
    exact ⟨hbody, hbody', hfirst, hfirst'⟩

namespace CutAlike

variable {req : Request} (h : CutAlike req split)
include h

/-- One byte behind a response without body is refused, if it is seen. -/
theorem noBody (hnone : noBodyStatus req split.httpStatus = true) : split.behind = [] := by
  by_contra hne
  obtain ⟨c, rest, hbehind⟩ := List.exists_cons_of_ne_nil hne
  obtain ⟨head, head', hagrees, hagrees', hsame, hbodies, -⟩ :=
    h [] [c] rest hbehind (by simp [bufSize])
  rw [readBody_of_agrees hagrees, readBody_of_agrees hagrees', if_pos hnone, if_pos hnone,
    judged_takeNoBody, judged_takeNoBody, if_pos (hbodies rfl).1, (hbodies rfl).2,
    if_neg (List.cons_ne_nil c [])] at hsame
  cases hsame

/-- The read that brings the first definite answer passes the limit, if it brings along enough. -/
theorem chunked (hsome : ¬ noBodyStatus req split.httpStatus = true)
    (hchunked : (scanHeaders split.headers).chunked = true) :
    ChunkedSettled (maxBodyOf req) split.behind := by
  intro p rest hbehind hanswer hfits
  by_contra hnot
  rw [not_or, not_le] at hnot
  obtain ⟨hlong, hsmall⟩ := hnot
  -- the decoder has no answer for nothing at all
  have hp : p ≠ [] := by
    rintro rfl
    exact hanswer.definite (decodeChunked_of_find_none rfl)
  -- cut the stream so that one read brings less than a buffer beyond the answer
  have ht : (rest.take (bufSize - 1)).length < bufSize := by
    rw [List.length_take, bufSize]
    omega
  rw [← List.take_append_drop (bufSize - 1) rest] at hbehind
  obtain ⟨head, head', hagrees, hagrees', hsame, -, hbodies⟩ := h _ _ _ hbehind ht
  obtain ⟨hbody, hbody', ⟨after, hfirst⟩, after', hfirst'⟩ := hbodies hp
  have hpre : ∀ {head : Head}, Agrees (.ok split) (.ok head) → head.body = [] →
      p <+: [] ++ head.source.bytes := by
    intro head hagrees hnil
    rw [← hnil, show head.body ++ head.source.bytes = head.behind from rfl, hagrees.2.2.1, hbehind]
    exact List.prefix_append _ _
  -- one source stays within the limit, the other goes beyond it
  have hwithin : ¬ codedLimit (maxBodyOf req) < ([] ++ p).length := not_lt.mpr hfits
  have hover : codedLimit (maxBodyOf req) < ([] ++ (p ++ rest.take (bufSize - 1))).length := by
    rw [List.nil_append, List.length_append, List.length_take]
    omega
  rw [readBody_of_agrees hagrees, readBody_of_agrees hagrees', if_neg hsome, if_neg hsome,
    if_pos hchunked, if_pos hchunked, hbody, hbody',
    judged_readChunked_of_firstAt (hpre hagrees hbody) hanswer hfits hfirst,
    judged_readChunked_of_firstAt (hpre hagrees' hbody') hanswer hfits hfirst',
    if_neg hwithin, if_pos hover] at hsame
  -- the answer would have to be refused for its length as well
  cases hdecoded : decodeChunked p [] with
  | incomplete => exact hanswer.definite hdecoded
  | invalid =>
    rw [hdecoded] at hsame
    cases hsame
  | complete decoded tail =>
    rw [hdecoded, judgeDecoded] at hsame
    split_ifs at hsame with hmax
    exact hsmall ⟨decoded, tail, hdecoded, hmax⟩

/-- One byte more than the length is refused, if it is seen. -/
theorem length (hsome : ¬ noBodyStatus req split.httpStatus = true)
    (hchunked : ¬ (scanHeaders split.headers).chunked = true)
    (hcl : (scanHeaders split.headers).cl ≠ npos) :
    maxBodyOf req < (scanHeaders split.headers).cl ∨
      split.behind.length ≤ (scanHeaders split.headers).cl ∨
      bufSize ≤ (scanHeaders split.headers).cl + 1 := by
  by_contra hnot
  rw [not_or, not_or] at hnot
  obtain ⟨hmax, hlong, hshort⟩ := hnot
  set cl := (scanHeaders split.headers).cl
  have ht : (split.behind.take (cl + 1)).length = cl + 1 := List.length_take_of_le (by omega)
  obtain ⟨head, head', hagrees, hagrees', hsame, hbodies, -⟩ := h []
    (split.behind.take (cl + 1)) (split.behind.drop (cl + 1)) (List.take_append_drop _ _).symm (by omega)
  have hbehind : (head.body ++ head.source.bytes).length = split.behind.length :=
    congrArg List.length hagrees.2.2.1
  obtain ⟨hbody, hbody'⟩ := hbodies rfl
  rw [readBody_of_agrees hagrees, readBody_of_agrees hagrees', if_neg hsome, if_neg hsome,
    if_neg hchunked, if_neg hchunked, if_pos hcl, if_pos hcl, judged_readLength, judged_readLength,
    if_neg hmax, if_neg hmax, if_neg (by rw [hbehind, hbody, List.length_nil]; omega),
    if_pos (.inl (by rw [hbody', ht]; omega))] at hsame
  cases hsame

/-- Under the largest limit a body is only read if it has begun. -/
theorem toEnd (hsome : ¬ noBodyStatus req split.httpStatus = true)
    (hchunked : ¬ (scanHeaders split.headers).chunked = true)
    (hcl : ¬ (scanHeaders split.headers).cl ≠ npos) (hnpos : maxBodyOf req = npos) :
    split.behind = [] := by
  by_contra hne
  obtain ⟨c, rest, hbehind⟩ := List.exists_cons_of_ne_nil hne
  obtain ⟨head, head', hagrees, hagrees', hsame, hbodies, -⟩ :=
    h [] [c] rest hbehind (by simp [bufSize])
  obtain ⟨hbody, hbody'⟩ := hbodies rfl
  obtain ⟨readFailed, hempty, -⟩ := readToEnd_of_wrap head.source
  rw [readBody_of_agrees hagrees, readBody_of_agrees hagrees', if_neg hsome, if_neg hsome,
    if_neg hchunked, if_neg hchunked, if_neg hcl, if_neg hcl,
    judged_readToEnd head'.source (maxBodyOf_le req) (by rw [hbody']; simp), hnpos, hbody, hbody',
    hempty, judged] at hsame
  split_ifs at hsame
  cases hsame

end CutAlike

/-- **A body that is not settled** is read differently from sources that are cut differently. -/
theorem bodySettled_of_segmentationFree {req : Request} (hsend : Sendable req)
    (hhead : HeadOf 0 stream (.ok split)) (hfree : SegmentationFree req stream) :
    BodySettled req split := by
  intro hvalid
  have hcuts := cutAlike_of_segmentationFree hsend hhead hfree hvalid
  by_cases hnone : noBodyStatus req split.httpStatus = true
  · rw [if_pos hnone]
    exact hcuts.noBody hnone
  rw [if_neg hnone]
  by_cases hchunked : (scanHeaders split.headers).chunked = true
  · rw [if_pos hchunked]
    exact hcuts.chunked hnone hchunked
  rw [if_neg hchunked]
  by_cases hcl : (scanHeaders split.headers).cl ≠ npos
  · rw [if_pos hcl]
    exact hcuts.length hnone hchunked hcl
  · rw [if_neg hcl]
    exact hcuts.toEnd hnone hchunked hcl

end

/-! ### The segmentations -/

/-- The sections of the stream and its body are settled. -/
def StreamSettled (req : Request) (stream : Bytes) : Prop :=
  ∃ outcome, HeadOf 0 stream outcome ∧ ∀ split, outcome = .ok split → BodySettled req split

/-- **When the pieces do not matter.**  All segmentations of a settled stream see the same; and a stream
whose sections are settled is seen the same in all segmentations only if its body is settled, too. -/
theorem segmentationFree_iff (req : Request) (stream : Bytes) :
    (StreamSettled req stream → SegmentationFree req stream) ∧
    (Sendable req → ∀ split, HeadOf 0 stream (.ok split) →
      (SegmentationFree req stream ↔ BodySettled req split)) := by
  have hsettled : StreamSettled req stream → SegmentationFree req stream := by
    rintro ⟨outcome, hhead, hbody⟩ dial engine source dial' engine' source' hsent rfl - hsent' heq -
    rw [seen_of_headOf hsent hhead hbody, seen_of_headOf hsent' (heq ▸ hhead) hbody]
  refine ⟨hsettled, fun hsend split hhead => ⟨bodySettled_of_segmentationFree hsend hhead, ?_⟩⟩
  intro hbody
  refine hsettled ⟨.ok split, hhead, ?_⟩
  rintro split' heq
  obtain rfl := Except.ok.inj heq
  exact hbody

/-- The head of a response with a body of five bytes. -/
def fiveBytesHead : Bytes := ascii "HTTP/1.1 200 OK\r\nContent-Length: 5\r\n\r\n"

/-- One byte follows the body, in a piece with all of it. -/
def surplusInOnePiece : Source := ⟨[fiveBytesHead ++ ascii "hello!"], .eof⟩

/-- The same bytes; the body begins a piece. -/
def surplusInTwoPieces : Source := ⟨[fiveBytesHead, ascii "hello!"], .eof⟩

theorem not_segmentationFree_surplus :
    ¬ SegmentationFree fiveBytesRequest (fiveBytesHead ++ ascii "hello!") := by
  intro h
  have hrefused : (seen (request (dialTo surplusInOnePiece) {} fiveBytesRequest)).errCode =
      .errProtocol := by decide +kernel
  have hok : (seen (request (dialTo surplusInTwoPieces) {} fiveBytesRequest)).errCode = .ok := by
    decide +kernel
  have hsame := h _ _ surplusInOnePiece _ _ surplusInTwoPieces (sent_dialTo _)
    List.flatten_singleton rfl (sent_dialTo _) (by decide +kernel) rfl
  rw [hsame, hok] at hrefused
  cases hrefused

end Http1

end AsterNet
