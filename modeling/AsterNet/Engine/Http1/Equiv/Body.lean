import AsterNet.Engine.Http1.Equiv.Chunked
import AsterNet.Engine.Http1.Response

/-!
# The body phase over every stream

For each framing, when its loop succeeds and what it then takes from the stream.  `body` is what the
header phase read beyond the sections, `t` the body and all that follows it.
-/

namespace AsterNet

namespace Http1

open ByteString Segmented

/-- A loop whose condition fails in the end did not stop at a failed read. -/
theorem stoppedByFailure_of_not {cond : Bytes → Bool} {size : Bytes → ℕ} {read : Bytes × Source}
    (h : cond read.1 = false) : stoppedByFailure cond size read = false := by
  rw [stoppedByFailure, h, Bool.false_and]

/-! ### No body -/

theorem takeNoBody_ok_iff {body : Bytes} {source : Source} {b : Body} :
    takeNoBody body source = .ok b ↔ body = [] ∧ b = ⟨[], [], source, false⟩ := by
  unfold takeNoBody
  split_ifs with h
  · constructor
    · rintro ⟨⟩
    · rintro ⟨rfl, -⟩
      exact absurd rfl h
  · rw [not_not] at h
    constructor
    · intro hb
      exact ⟨h, (Except.ok.inj hb).symm⟩
    · rintro ⟨-, rfl⟩
      rfl

/-! ### `Content-Length` -/

/-- What the loop holds in the end: all it wanted, or all there is. -/
theorem readLength_loop {cl : ℕ} {body : Bytes} {source : Source} (hbody : body.length ≤ cl) :
    (readWhile (fun body => decide (body.length < cl)) (lengthReadSize cl) body source).1 =
      (body ++ source.bytes).take cl := by
  have hall := readWhile_bytes (fun body => decide (body.length < cl)) (lengthReadSize cl) body source
  have hstop := readWhile_stop (fun body => decide (body.length < cl)) (lengthReadSize cl) body source
  rcases Nat.lt_or_ge (body ++ source.bytes).length cl with hshort | hlong
  · -- the stream ends before the length is reached
    set r := readWhile (fun body => decide (body.length < cl)) (lengthReadSize cl) body source
    have hle : r.1.length ≤ (body ++ source.bytes).length := by
      rw [← hall, List.length_append]
      omega
    rcases hstop with h | h | h
    · rw [decide_eq_false_iff_not] at h
      omega
    · simp only [lengthReadSize, bufSize] at h
      omega
    · rw [h, List.append_nil] at hall
      rw [hall, List.take_of_length_le (by omega)]
  · refine readWhile_eq_of_exact hbody hlong (fun p => decide_eq_true_iff) ?_
    intro p hp
    rw [decide_eq_true_iff] at hp
    simp only [lengthReadSize, bufSize]
    omega

/-- **The `Content-Length` framing** succeeds when the length is allowed, was not exceeded by the
header phase, and arrives; it then takes exactly that many bytes. -/
theorem readLength_ok_iff {maxBody cl : ℕ} {body : Bytes} {source : Source} :
    (∃ b, readLength maxBody cl body source = .ok b) ↔
      cl ≤ maxBody ∧ body.length ≤ cl ∧ cl ≤ (body ++ source.bytes).length := by
  have hall := readWhile_bytes (fun body => decide (body.length < cl)) (lengthReadSize cl) body source
  have hpre := prefix_readWhile (fun body => decide (body.length < cl)) (lengthReadSize cl) body source
  unfold readLength
  constructor
  · rintro ⟨b, h⟩
    dsimp only at h
    split_ifs at h with hmax hless hmore
    have h1 := hpre.length_le
    have h2 := congrArg List.length hall
    rw [List.length_append] at h2
    exact ⟨by omega, by omega, by omega⟩
  · rintro ⟨hmax, hbody, hlong⟩
    -- the loop stops at the length
    have hlen : (readWhile (fun body => decide (body.length < cl)) (lengthReadSize cl)
        body source).1.length = cl := by
      rw [readLength_loop hbody, List.length_take, min_eq_left hlong]
    dsimp only
    rw [if_neg (by omega), if_neg (by omega), if_neg (by omega)]
    exact ⟨_, rfl⟩

theorem readLength_ok {maxBody cl : ℕ} {body : Bytes} {source : Source} {b : Body}
    (h : readLength maxBody cl body source = .ok b) :
    b.body = (body ++ source.bytes).take cl ∧ b.message = b.body ∧
      b.message ++ b.source.bytes = body ++ source.bytes ∧ b.readFailed = false := by
  obtain ⟨-, hbody, hlong⟩ := readLength_ok_iff.mp ⟨b, h⟩
  have hloop := @readLength_loop cl body source hbody
  have hall := readWhile_bytes (fun body => decide (body.length < cl)) (lengthReadSize cl) body source
  unfold readLength at h
  dsimp only at h
  split_ifs at h with hmax hless hmore
  obtain rfl := Except.ok.inj h
  have hexact : ((readWhile (fun body => decide (body.length < cl)) (lengthReadSize cl)
      body source).1).take cl =
      (readWhile (fun body => decide (body.length < cl)) (lengthReadSize cl) body source).1 :=
    List.take_of_length_le (by omega)
  refine ⟨?_, hexact.symm, hall, ?_⟩
  · rw [← hloop]
    exact hexact
  · dsimp only
    apply stoppedByFailure_of_not
    rw [decide_eq_false_iff_not]
    exact hless

/-! ### The chunked coding -/

/-- **The chunked framing** succeeds on a complete coding only.  The loop goes on at every read
boundary at which the coding is not complete. -/
theorem readChunked_ok {maxBody : ℕ} {body : Bytes} {source : Source} {b : Body}
    (h : readChunked maxBody body source = .ok b) :
    b.body.length ≤ maxBody ∧ b.readFailed = false ∧ IsCoding b.message b.body ∧
      ∃ rest d, body ++ d = b.message ++ rest ∧ Reads bufSize source d b.source ∧
        ∀ e source', Reads bufSize source e source' → e.length < d.length →
          (body ++ e).length < b.message.length := by
  -- the loop has read `d`, and went on at every boundary before
  obtain ⟨d, hd, hreads⟩ := reads_readWhile body source
  have hpassed : ∀ e source', Reads bufSize source e source' →
      (body ++ e).length < (readWhile (chunkedPending maxBody) (fun _ => bufSize) body source).1.length →
      chunkedPending maxBody (body ++ e) = true := fun e source' => cond_of_reads
  unfold readChunked at h
  dsimp only at h
  generalize readWhile (chunkedPending maxBody) (fun _ => bufSize) body source = read at *
  -- the decoder completed; every other result is an error
  split at h
  · rename_i decoded rest hresult
    split_ifs at h with hmax
    obtain rfl := Except.ok.inj h
    have hdecode : decodeChunked read.1 [] = .complete decoded rest := by
      split_ifs at hresult with hlimit
      exact hresult
    obtain ⟨m, b, hread, hb, hm⟩ := isCoding_of_decodeChunked hdecode
    rw [List.nil_append] at hb
    subst hb
    have hmessage : read.1.take (read.1.length - rest.length) = m := by
      rw [hread, List.length_append, Nat.add_sub_cancel, List.take_left]
    dsimp only
    rw [hmessage]
    refine ⟨not_lt.mp hmax, ?_, hm, rest, d, by rw [← hd, hread], hreads, ?_⟩
    · apply stoppedByFailure_of_not
      rw [← Bool.not_eq_true, chunkedPending, Incremental.pending_iff, hdecode]
      rintro ⟨-, ⟨⟩⟩
    · intro e source' he hlt
      have hlt' : (body ++ e).length < read.1.length := by
        rw [hd, List.length_append, List.length_append]
        omega
      have hinc := (Incremental.pending_iff.mp (hpassed e source' he hlt')).2
      -- at a boundary behind the message the decoder would have been done
      by_contra hge
      obtain ⟨e', rfl, -⟩ := he.exists_append hreads hlt.le
      have hpre : m <+: body ++ e := by
        apply List.prefix_of_prefix_length_le (List.prefix_append m rest) _ (not_lt.mp hge)
        rw [← hread, hd, ← List.append_assoc]
        exact List.prefix_append _ _
      obtain ⟨u, hu⟩ := hpre
      rw [← hu, decodeChunked_of_isCoding hm] at hinc
      cases hinc
  · cases h

/-- Over a stream that holds exactly one coding, the framing succeeds when the coding is within the
limit as `size_t` computes it. -/
theorem readChunked_of_isCoding {maxBody : ℕ} {body m decoded : Bytes} {source : Source}
    (hm : IsCoding m decoded) (hb : body ++ source.bytes = m) (hmax : decoded.length ≤ maxBody) :
    (∃ b, readChunked maxBody body source = .ok b) ↔ m.length ≤ codedLimit maxBody := by
  have hcomplete : decodeChunked m [] = .complete decoded [] := by
    have := decodeChunked_of_isCoding hm [] []
    rwa [List.append_nil] at this
  unfold readChunked
  dsimp only
  rcases Nat.lt_or_ge (codedLimit maxBody) m.length with hlong | hfits
  · have hbeyond := lawful_decodeChunked.lt_length_readWhile (n := bufSize) (by decide) hcomplete hb
      hlong
    change _ < (readWhile (chunkedPending maxBody) (fun _ => bufSize) body source).1.length at hbeyond
    rw [if_neg (by omega)]
    constructor
    · rintro ⟨b, ⟨⟩⟩
    · omega
  · have hall := lawful_decodeChunked.readWhile_of_fits (n := bufSize) (by decide) hcomplete hb hfits
    change (readWhile (chunkedPending maxBody) (fun _ => bufSize) body source).1 = m at hall
    rw [hall, if_pos hfits, hcomplete]
    dsimp only
    rw [if_neg (by omega)]
    exact ⟨fun _ => hfits, fun _ => ⟨_, rfl⟩⟩

/-- The chunked framing when the loop ends within the limit. -/
theorem readChunked_of_read {maxBody : ℕ} {body read : Bytes} {source after : Source}
    (hread : readWhile (chunkedPending maxBody) (fun _ => bufSize) body source = (read, after))
    (hle : read.length ≤ codedLimit maxBody) :
    ∃ readFailed, readChunked maxBody body source = match decodeChunked read [] with
      | .complete decoded rest =>
        if maxBody < decoded.length then .error ⟨.errBufferTooSmall, readFailed⟩
        else .ok ⟨decoded, read.take (read.length - rest.length), after, readFailed⟩
      | _ => .error ⟨.errProtocol, readFailed⟩ := by
  refine ⟨stoppedByFailure (chunkedPending maxBody) (fun _ => bufSize) (read, after), ?_⟩
  unfold readChunked
  rw [hread]
  dsimp only
  rewrite [if_pos hle, if_neg (not_lt.mpr hle)]
  cases decodeChunked read [] with
  | incomplete => rfl
  | invalid => rfl
  | complete decoded rest => rfl

/-- **When the chunked framing succeeds**: the stream begins with the coding of a body within the limit,
and a read ends behind the coding and within the limit on it. -/
theorem readChunked_ok_iff {maxBody : ℕ} {body : Bytes} {source : Source} :
    (∃ b, readChunked maxBody body source = .ok b) ↔ ∃ m decoded rest d after,
      body ++ source.bytes = m ++ rest ∧ IsCoding m decoded ∧ decoded.length ≤ maxBody ∧
      Reads bufSize source d after ∧ m.length ≤ (body ++ d).length ∧
      (body ++ d).length ≤ codedLimit maxBody := by
  constructor
  · rintro ⟨b, hb⟩
    obtain ⟨hmax, -, hcoding, rest, d, hd, hreads, -⟩ := readChunked_ok hb
    refine ⟨b.message, b.body, rest ++ b.source.bytes, d, b.source, ?_, hcoding, hmax, hreads, ?_, ?_⟩
    · rw [hreads.bytes_eq, ← List.append_assoc, hd, List.append_assoc]
    · rw [hd, List.length_append]
      omega
    · -- beyond the limit the buffer is not decoded
      by_contra hlong
      have hread := readWhile_bytes (chunkedPending maxBody) (fun _ => bufSize) body source
      unfold readChunked at hb
      dsimp only at hb
      generalize readWhile (chunkedPending maxBody) (fun _ => bufSize) body source = read at *
      split at hb
      · rename_i decoded tail hresult
        split_ifs at hb with hmax'
        obtain rfl := Except.ok.inj hb
        dsimp only at hreads
        have hall : body ++ d = read.1 := by
          have := hreads.bytes_eq
          rw [this, ← List.append_assoc, List.append_cancel_right_eq] at hread
          exact hread.symm
        rw [if_neg (by rwa [← hall])] at hresult
        cases hresult
      · cases hb
  · rintro ⟨m, decoded, rest, d, after, hbytes, hcoding, hmax, hreads, hge, hle⟩
    -- the decoder stops at the end of the coding, whatever follows
    have hcomplete : ∀ t, decodeChunked (m ++ t) [] = .complete decoded t :=
      decodeChunked_of_isCoding hcoding []
    have hexact : decodeChunked m [] = .complete decoded [] := by
      have := hcomplete []
      rwa [List.append_nil] at this
    have hlength := congrArg List.length hbytes
    rw [List.length_append, List.length_append] at hlength
    -- the first boundary behind the coding is where the loop stops
    obtain ⟨d₀, after₀, hfirst, -⟩ := FirstAt.exists_of_le (n := bufSize) (s := source)
      (k := m.length - body.length) (by decide) (by omega)
    have hfits : (body ++ d₀).length ≤ codedLimit maxBody := by
      have hd := hfirst.first d after hreads (by rw [List.length_append] at hge; omega)
      rw [List.length_append] at hle ⊢
      omega
    have hread : readWhile (chunkedPending maxBody) (fun _ => bufSize) body source =
        (body ++ d₀, after₀) := lawful_decodeChunked.readWhile_of_firstAt
      ⟨rest, hbytes.symm⟩ (lawful_decodeChunked.firstAnswer hexact) (by omega) hfirst
    obtain ⟨readFailed, hchunked⟩ := readChunked_of_read hread hfits
    -- what was read has the coding in front
    obtain ⟨t, ht⟩ : m <+: body ++ d₀ := by
      apply List.prefix_of_prefix_length_le ⟨rest, hbytes.symm⟩
      · rw [hfirst.reads.bytes_eq, ← List.append_assoc]
        exact List.prefix_append _ _
      · have := hfirst.le
        rw [List.length_append]
        omega
    rw [hchunked, ← ht, hcomplete]
    dsimp only
    rw [if_neg (not_lt.mpr hmax)]
    exact ⟨_, rfl⟩

/-! ### To the end of the stream -/

/-- `remaining + 1` does not wrap, except when all of `size_t` remains. -/
theorem endReadSize_pos {maxBody : ℕ} {body : Bytes} (hmax : maxBody ≤ npos)
    (h : maxBody = npos → body ≠ []) : 0 < endReadSize maxBody body := by
  have hsize : sizeT (maxBody - body.length + 1) = maxBody - body.length + 1 := by
    apply Nat.mod_eq_of_lt
    rcases hmax.lt_or_eq with hlt | heq
    · simp only [npos] at hlt
      omega
    · have := List.length_pos_of_ne_nil (h heq)
      simp only [npos] at heq
      omega
  rw [endReadSize, hsize, bufSize]
  omega

section End

variable {maxBody : ℕ} {body : Bytes} {source : Source}

/-- The loop ends beyond the limit or with the stream. -/
theorem readToEnd_loop (source : Source) (hmax : maxBody ≤ npos) (h : maxBody = npos → body ≠ []) :
    ∃ read, readWhile (fun body => decide (body.length ≤ maxBody)) (endReadSize maxBody) body source =
        read ∧ read.1 ++ read.2.bytes = body ++ source.bytes ∧ read.2.ending = source.ending ∧
      (maxBody < read.1.length ∨ read.2.bytes = []) := by
  have hstop := readWhile_stop (fun body => decide (body.length ≤ maxBody)) (endReadSize maxBody)
    body source
  have hpre := prefix_readWhile (fun body => decide (body.length ≤ maxBody)) (endReadSize maxBody)
    body source
  refine ⟨_, rfl, readWhile_bytes .., readWhile_ending .., ?_⟩
  rcases hstop with hc | hs | hnil
  · rw [decide_eq_false_iff_not, not_le] at hc
    exact .inl hc
  · have hpos := endReadSize_pos hmax fun hm hnil => h hm (List.prefix_nil.mp (hnil ▸ hpre))
    omega
  · exact .inr hnil

/-- Within the limit the loop takes all there is, however the stream ends. -/
theorem readToEnd_of_le (hmax : maxBody ≤ npos) (h : maxBody = npos → body ≠ [])
    (hle : (body ++ source.bytes).length ≤ maxBody) :
    ∃ rest, readToEnd maxBody body source =
      .ok ⟨body ++ source.bytes, body ++ source.bytes, rest, source.ending = .failure⟩ := by
  obtain ⟨read, hread, hall, hending, hend⟩ := readToEnd_loop source hmax h
  have hshort : read.1.length ≤ maxBody := by
    rw [← hall, List.length_append] at hle
    omega
  have hdone : read.2.bytes = [] := hend.resolve_left (by omega)
  have hfailed : stoppedByFailure (fun body => decide (body.length ≤ maxBody))
      (endReadSize maxBody) read = decide (source.ending = .failure) := by
    rw [stoppedByFailure, decide_eq_true hshort, Bool.true_and, Source.read_of_bytes_eq_nil hdone,
      hending]
    split_ifs with hf <;> simp [hf]
  rw [hdone, List.append_nil] at hall
  refine ⟨read.2, ?_⟩
  unfold readToEnd
  dsimp only
  rw [hread, if_neg (not_lt.mpr hshort), hall, hfailed]

/-- Beyond the limit it refuses. -/
theorem readToEnd_of_lt (hmax : maxBody ≤ npos) (h : maxBody = npos → body ≠ [])
    (hlt : maxBody < (body ++ source.bytes).length) (b : Body) :
    readToEnd maxBody body source ≠ .ok b := by
  obtain ⟨read, hread, hall, -, hend⟩ := readToEnd_loop source hmax h
  have hlong : maxBody < read.1.length := by
    rcases hend with hlong | hnil
    · exact hlong
    · rw [hnil, List.append_nil] at hall
      rwa [hall]
  unfold readToEnd
  dsimp only
  rw [hread, if_pos hlong]
  rintro ⟨⟩

/-- With all of `size_t` remaining the first read asks for nothing, and the body stays empty. -/
theorem readToEnd_of_wrap (source : Source) :
    ∃ readFailed, readToEnd npos [] source = .ok ⟨[], [], source, readFailed⟩ ∧
      (source.bytes = [] → readFailed = decide (source.ending = .failure)) := by
  have hsize : endReadSize npos [] = 0 := by decide
  -- a read of no bytes ends the loop at once
  have hloop : readWhile (fun body => decide (body.length ≤ npos)) (endReadSize npos) [] source =
      ([], source) := by
    rcases readWhile_cases (fun body => decide (body.length ≤ npos)) (endReadSize npos) [] source with
      ⟨-, heq⟩ | ⟨-, -, heq⟩ | ⟨d, rest, -, hr, -⟩
    · exact heq
    · exact heq
    · rw [hsize] at hr
      obtain ⟨hne, hle, -⟩ := Source.read_positive hr
      exact absurd (List.length_eq_zero_iff.mp (Nat.le_zero.mp hle)) hne
  unfold readToEnd
  dsimp only
  rw [hloop]
  refine ⟨_, rfl, ?_⟩
  intro hnil
  have hpending : decide (([] : Bytes).length ≤ npos) = true := by decide
  rw [stoppedByFailure, hpending, Bool.true_and, Source.read_of_bytes_eq_nil hnil]
  split_ifs with hf <;> simp [hf]

/-- **When the framing by the end of the stream succeeds**: all of it is within the limit, or the first read
asks for nothing. -/
theorem readToEnd_ok_iff (hmax : maxBody ≤ npos) : (∃ b, readToEnd maxBody body source = .ok b) ↔
    (body ++ source.bytes).length ≤ maxBody ∨ (maxBody = npos ∧ body = []) := by
  by_cases hwrap : maxBody = npos ∧ body = []
  · obtain ⟨rfl, rfl⟩ := hwrap
    obtain ⟨readFailed, hread, -⟩ := readToEnd_of_wrap source
    exact iff_of_true ⟨_, hread⟩ (.inr ⟨rfl, rfl⟩)
  · have hne : maxBody = npos → body ≠ [] := fun hm hnil => hwrap ⟨hm, hnil⟩
    rw [or_iff_left hwrap]
    constructor
    · rintro ⟨b, hb⟩
      by_contra hlong
      exact readToEnd_of_lt hmax hne (not_le.mp hlong) b hb
    · intro hle
      obtain ⟨rest, hread⟩ := readToEnd_of_le hmax hne hle
      exact ⟨_, hread⟩

end End

/-! ### The response -/

/-- `max_body` of a request. -/
def maxBodyOf (req : Request) : ℕ := req.maxResponseBodyBytes.toNat

theorem maxBodyOf_le (req : Request) : maxBodyOf req ≤ npos := by
  have := req.maxResponseBodyBytes.toNat_lt
  simp only [maxBodyOf, npos]
  omega

/-- A refused body is refused with an error. -/
theorem readBody_error {req : Request} {head : Head} {scan : Scan} {failure : BodyFailure}
    (h : readBody req head scan = .error failure) : failure.errCode ≠ .ok := by
  unfold readBody at h
  dsimp only at h
  split_ifs at h
  · -- no body, chunked, with a length, up to the end
    unfold takeNoBody at h
    split_ifs at h
    obtain rfl := Except.error.inj h
    simp
  -- the chunked body is too long, or the coding is not complete
  · unfold readChunked at h
    dsimp only at h
    split at h
    · split_ifs at h
      obtain rfl := Except.error.inj h
      simp
    · obtain rfl := Except.error.inj h
      dsimp only
      split_ifs <;> simp
  · unfold readLength at h
    dsimp only at h
    split_ifs at h <;> (obtain rfl := Except.error.inj h; simp)
  · unfold readToEnd at h
    dsimp only at h
    split_ifs at h
    obtain rfl := Except.error.inj h
    simp

/-- What the reply says when the body phase succeeds. -/
theorem readResponse_of_ok {req : Request} {source : Source} {head : Head} {b : Body}
    (hread : readHead [] 0 [] source = .ok head) (hscan : (scanHeaders head.headers).invalid = false)
    (hb : readBody req head (scanHeaders head.headers) = .ok b)
    (hmax : b.body.length ≤ maxBodyOf req) :
    readResponse req source =
      ({ errCode := .ok, httpStatus := head.httpStatus, body := b.body, sections := head.sections
         message := b.message, readFailed := b.readFailed },
        if keepsConnection req head (scanHeaders head.headers) then some b.source else none) := by
  unfold readResponse
  rw [hread]
  dsimp only
  rw [if_neg (by rw [hscan]; simp), hb]
  exact if_neg (not_lt.mpr hmax)

/-- What an OK reply comes from. -/
theorem readResponse_ok {req : Request} {source : Source}
    (h : (readResponse req source).1.errCode = .ok) :
    ∃ head b, readHead [] 0 [] source = .ok head ∧ (scanHeaders head.headers).invalid = false ∧
      readBody req head (scanHeaders head.headers) = .ok b ∧ b.body.length ≤ maxBodyOf req := by
  -- a head, a framing, a body and its size: each may fail before the answer is OK
  unfold readResponse at h
  cases hread : readHead [] 0 [] source with
  | error failure =>
    rw [hread] at h
    cases h
  | ok head =>
    rw [hread] at h
    dsimp only at h
    cases hinvalid : (scanHeaders head.headers).invalid with
    | true =>
      rw [if_pos hinvalid] at h
      cases h
    | false =>
      rw [if_neg (by rw [hinvalid]; simp)] at h
      cases hb : readBody req head (scanHeaders head.headers) with
      | error failure =>
        rw [hb] at h
        exact absurd h (readBody_error hb)
      | ok b =>
        rw [hb] at h
        dsimp only at h
        by_cases hlong : req.maxResponseBodyBytes.toNat < b.body.length
        · rw [if_pos hlong] at h
          cases h
        · exact ⟨head, b, rfl, hinvalid, hb, not_lt.mp hlong⟩

end Http1

end AsterNet
