import AsterNet.Abi.Equiv.RequestSync
import AsterNet.Client.Equiv.Diagnostics
import AsterNet.Jni.Bridge
import AsterNet.Jni.Equiv.JsonEscape

/-!
# What an Android application is told

* `requestNative_spec`: the text that the call answers with has every member of the result, with the body that
  was copied as characters, and the `Response` in Java has them too where the documentation of JNI and of
  `org.json` promises it.  A request is made exactly when the arguments make one.
* `acceptHeaders_headerText`: the headers of a text come out as they went in.

`exists_reads_reply` is about the text and rests on nothing outside the program; `javaResponse_of_reads` brings
in the documentation, and `documented_strictLibrary` is a library that keeps to it.
-/

namespace AsterNet

open ByteString Json Utf8 Effect

namespace Jni

/-! ### Reading a reply -/

/-- The members of a reply, with this body. -/
def replyMembers (r : Abi.SyncResult) (body : List Char) : List (List Char × Value) :=
  [("result".toList, .int r.result.code), ("error".toList, .string (Abi.resultString r.result).toList),
    ("status".toList, .int r.info.httpStatus), ("protocol".toList, .int (protocolCode r.info.protocol)),
    ("degraded".toList, .int r.info.degraded), ("body_size".toList, .int r.info.bodySize),
    ("dns_ms".toList, .int r.info.dnsMs), ("connect_ms".toList, .int r.info.connectMs),
    ("tls_ms".toList, .int r.info.tlsMs), ("ttfb_ms".toList, .int r.info.ttfbMs),
    ("total_ms".toList, .int r.info.totalMs), ("body".toList, .string body)]

/-- The body as it stands in the reply. -/
def escapedBody (r : Abi.SyncResult) : Bytes :=
  if r.result = .ok then jsonEscape (r.copied.take r.info.bodyCopied) else []

/-- Their texts. -/
def replyTexts (r : Abi.SyncResult) : List (Bytes × Bytes) :=
  [(ascii "result", intText r.result.code), (ascii "error", 34 :: (ascii (Abi.resultString r.result) ++ [34])),
    (ascii "status", intText r.info.httpStatus), (ascii "protocol", intText (protocolCode r.info.protocol)),
    (ascii "degraded", intText r.info.degraded), (ascii "body_size", decimal r.info.bodySize),
    (ascii "dns_ms", intText r.info.dnsMs), (ascii "connect_ms", intText r.info.connectMs),
    (ascii "tls_ms", intText r.info.tlsMs), (ascii "ttfb_ms", intText r.info.ttfbMs),
    (ascii "total_ms", intText r.info.totalMs), (ascii "body", 34 :: (escapedBody r ++ [34]))]

theorem reply_eq (r : Abi.SyncResult) : reply r = objectText (replyTexts r) := by
  have hquote : ascii "\"" = [34] := by decide
  have hnext : ascii "\"," = [34, 44] := by decide
  have hend : ascii "\"\x7d" = [34, 125] := by decide
  unfold reply replyTexts
  rw [← escapedBody]
  simp only [objectText, separate, memberText, List.map_cons, List.map_nil, List.append_assoc,
    List.cons_append, List.nil_append, key_append, ascii_brace, ascii_comma, hquote, hnext, hend]

theorem resultString_plain (result : Result) : (Abi.resultString result).toList.all isPlain = true := by
  cases result <;> decide

theorem reads_reply {r : Abi.SyncResult} {body : List Char} (hbody : JsonString.decode (escapedBody r) = some body) :
    Reads (.object (replyMembers r body)) (reply r) := by
  have hlast : ReadsMember ("body".toList, .string body) (ascii "body", 34 :: (escapedBody r ++ [34])) :=
    readsMember_of_plain (by decide) (reads_string hbody)
  have herror : ReadsMember ("error".toList, .string (Abi.resultString r.result).toList)
      (ascii "error", 34 :: (ascii (Abi.resultString r.result) ++ [34])) :=
    readsMember_of_plain (by decide) (reads_string (decode_ascii (resultString_plain r.result)))
  rw [reply_eq]
  refine reads_object ?_
  unfold replyMembers replyTexts
  repeat' first | exact List.Forall₂.nil | refine List.Forall₂.cons ?_ ?_
  all_goals with_reducible first
    | exact readsMember_of_plain (by decide) (reads_nat _)
    | exact readsMember_of_plain (by decide) (reads_int _)
    | exact herror
    | exact hlast

/-- A number is written in ASCII. -/
theorem forall_lt_intText (n : ℤ) : ∀ b ∈ intText n, b < 0xf0 := by
  intro b hb
  rw [← NumberText.bytes_ofInt] at hb
  exact UInt8.lt_trans ((NumberText.ofInt n).isNumberChar_of_mem b hb).2 (by decide)

theorem forall_lt_resultString (result : Result) :
    ∀ b ∈ (34 :: (ascii (Abi.resultString result) ++ [34]) : Bytes), b < 0xf0 := by
  cases result <;> exact Monitor.forall_lt_of_all (by decide)

/-- A reply has no sequence of four bytes, unless its body has one. -/
theorem forall_lt_reply {r : Abi.SyncResult} (hbody : ∀ b ∈ escapedBody r, b < 0xf0) : ∀ b ∈ reply r, b < 0xf0 := by
  -- the size is written as a natural number, the other numbers as integers
  have hnat := forall_lt_intText r.info.bodySize
  rw [intText_natCast] at hnat
  have hquoted : ∀ b ∈ (34 :: (escapedBody r ++ [34]) : Bytes), b < 0xf0 := by
    intro b hb
    simp only [List.mem_cons, List.mem_append, List.not_mem_nil, or_false] at hb
    rcases hb with rfl | hb | rfl
    · decide
    · exact hbody b hb
    · decide
  rw [reply_eq]
  refine forall_mem_objectText (Monitor.forall_lt_of_all (by decide)) fun t ht => ?_
  simp only [replyTexts, List.mem_cons, List.not_mem_nil, or_false] at ht
  rcases ht with rfl | rfl | rfl | rfl | rfl | rfl | rfl | rfl | rfl | rfl | rfl | rfl
  all_goals
    dsimp only
    refine ⟨Monitor.forall_lt_of_all (by decide), ?_⟩
  all_goals with_reducible first
    | exact forall_lt_intText _
    | exact hnat
    | exact forall_lt_resultString _
    | exact hquoted

/-- No member has the name of another one. -/
theorem nodup_replyMembers (r : Abi.SyncResult) (body : List Char) : ((replyMembers r body).map Prod.fst).Nodup := by
  have hnames : (replyMembers r body).map Prod.fst =
      ["result", "error", "status", "protocol", "degraded", "body_size", "dns_ms", "connect_ms", "tls_ms", "ttfb_ms",
        "total_ms", "body"].map String.toList := rfl
  rw [hnames]
  decide

/-! ### The response -/

/-- The members that Java asks for. -/
def view (r : Abi.SyncResult) (body : List Char) : JavaResponse where
  result := r.result.code
  error := utf16 (Abi.resultString r.result).toList
  status := r.info.httpStatus
  protocol := protocolCode r.info.protocol
  degraded := r.info.degraded != 0
  bodySize := r.info.bodySize
  dnsMs := r.info.dnsMs
  connectMs := r.info.connectMs
  tlsMs := r.info.tlsMs
  ttfbMs := r.info.ttfbMs
  totalMs := r.info.totalMs
  body := utf16 body

/-- The response to arguments that make no request. -/
def refused : JavaResponse where
  result := Result.code .errInvalidArgument
  error := utf16 (Abi.resultString .errInvalidArgument).toList
  status := 0
  protocol := 0
  degraded := false
  bodySize := 0
  dnsMs := -1
  connectMs := -1
  tlsMs := -1
  ttfbMs := -1
  totalMs := -1
  body := []

/-- The numbers are those of their types: an `int`, an `int64_t`, and a size that a signed one can tell. -/
structure InTypes (info : ResponseInfo) : Prop where
  httpStatus : CheckedInt.InRange 32 info.httpStatus
  degraded : CheckedInt.InRange 32 info.degraded
  bodySize : CheckedInt.InRange 64 info.bodySize
  dnsMs : CheckedInt.InRange 64 info.dnsMs
  connectMs : CheckedInt.InRange 64 info.connectMs
  tlsMs : CheckedInt.InRange 64 info.tlsMs
  ttfbMs : CheckedInt.InRange 64 info.ttfbMs
  totalMs : CheckedInt.InRange 64 info.totalMs

theorem inRange_resultCode (result : Result) : CheckedInt.InRange 32 result.code := by
  cases result <;> decide

theorem inRange_protocolCode (protocol : Protocol) : CheckedInt.InRange 32 (protocolCode protocol) := by
  cases protocol <;> decide

section

variable {JsonObject : Type} {java : JavaLibrary JsonObject} (hjava : java.Documented)

include hjava

/-- The text of an object without a sequence of four bytes makes a response with its members. -/
theorem javaResponse_of_reads {members : List (List Char × Value)} {text : Bytes} (h : Reads (.object members) text)
    (htext : ∀ b ∈ text, b < 0xf0) (hnames : (members.map Prod.fst).Nodup) :
    ∃ json, javaResponse java text = some (.ofJson java json) ∧ java.Shows json members := by
  have hread := read_of_reads h
  obtain ⟨cs, rfl, hreads⟩ := h
  have hplane := forall_lt_encode_iff.mp htext
  obtain ⟨json, hjson, hshows⟩ := hjava.jsonObject hread hnames
  refine ⟨json, ?_, hshows⟩
  have hunits : ∀ c ∈ cs, c.toNat ≠ 0 ∧ c.toNat < 0x10000 := fun c hc =>
    ⟨Nat.ne_of_gt (Nat.lt_of_lt_of_le (by decide) (hreads.printable c hc)), hplane c hc⟩
  unfold javaResponse
  rw [hjava.newStringUTF hunits, hjson]

end

theorem ofJson_replyMembers {JsonObject : Type} {java : JavaLibrary JsonObject} {json : JsonObject}
    {r : Abi.SyncResult} {body : List Char} (h : java.Shows json (replyMembers r body)) (hinfo : InTypes r.info) :
    JavaResponse.ofJson java json = view r body := by
  unfold JavaResponse.ofJson view
  rw [h.int (List.mem_of_getElem? (i := 0) rfl) (inRange_resultCode r.result),
    h.string (List.mem_of_getElem? (i := 1) rfl),
    h.int (List.mem_of_getElem? (i := 2) rfl) hinfo.httpStatus,
    h.int (List.mem_of_getElem? (i := 3) rfl) (inRange_protocolCode r.info.protocol),
    h.int (List.mem_of_getElem? (i := 4) rfl) hinfo.degraded,
    h.long (List.mem_of_getElem? (i := 5) rfl) hinfo.bodySize,
    h.long (List.mem_of_getElem? (i := 6) rfl) hinfo.dnsMs,
    h.long (List.mem_of_getElem? (i := 7) rfl) hinfo.connectMs,
    h.long (List.mem_of_getElem? (i := 8) rfl) hinfo.tlsMs,
    h.long (List.mem_of_getElem? (i := 9) rfl) hinfo.ttfbMs,
    h.long (List.mem_of_getElem? (i := 10) rfl) hinfo.totalMs,
    h.string (List.mem_of_getElem? (i := 11) rfl)]

/-! ### The call -/

/-- What is copied is told with its length, and nothing is copied of a failure. -/
theorem copied_handOver (out : Abi.OutBody) (answer : RequestResult) :
    ((Abi.handOver out answer).result = .ok →
        (Abi.handOver out answer).copied.length = (Abi.handOver out answer).info.bodyCopied) ∧
      ((Abi.handOver out answer).result ≠ .ok → (Abi.handOver out answer).copied = []) := by
  unfold Abi.handOver
  dsimp only
  split_ifs with hfailed hsmall
  · exact ⟨fun hok => absurd hok hfailed, fun _ => rfl⟩
  · exact ⟨by simp, fun _ => rfl⟩
  · exact ⟨fun _ => rfl, fun hne => absurd rfl hne⟩

theorem copied_requestSync {σ : Type} (env : ClientEnv σ) (client : Option (Abi.AbiConfig × ClientConfig))
    (policy : ProtocolPolicy) (request : Abi.AbiRequest) (out : Abi.OutBody) (w : World σ) :
    let r := (Abi.requestSync env client policy request out w).val
    (r.result = .ok → r.copied.length = r.info.bodyCopied) ∧ (r.result ≠ .ok → r.copied = []) := by
  unfold Abi.requestSync
  cases client with
  | none => exact ⟨by simp [Abi.invalidArgument], fun _ => rfl⟩
  | some both =>
    dsimp only
    cases Abi.internalRequest both.1 request with
    | none => exact ⟨by simp [Abi.invalidArgument], fun _ => rfl⟩
    | some internal => exact copied_handOver out _

/-- **What a reply says**: the members of the result, and the characters of what was copied.  It has no sequence
of four bytes, unless one was copied. -/
theorem exists_reads_reply {r : Abi.SyncResult} (hok : r.result = .ok → r.copied.length = r.info.bodyCopied)
    (hfailed : r.result ≠ .ok → r.copied = []) :
    ∃ pieces, IsReading r.copied pieces ∧ Reads (.object (replyMembers r (pieces.map charOf))) (reply r) ∧
      ((∀ c ∈ pieces.map charOf, c.toNat < 0x10000) → ∀ b ∈ reply r, b < 0xf0) := by
  have hescaped : escapedBody r = jsonEscape r.copied := by
    unfold escapedBody
    split_ifs with hresult
    · rw [← hok hresult, List.take_length]
    · rw [hfailed hresult, jsonEscape]
  obtain ⟨pieces, text, hpieces, htext, hunescape, hchars⟩ := exists_isReading r.copied
  have hdecode : JsonString.decode (escapedBody r) = some (pieces.map charOf) := by
    rw [hescaped, htext, JsonString.decode, decode_eq_some_iff.mpr rfl, Option.bind_some, hunescape]
  refine ⟨pieces, hpieces, reads_reply hdecode, fun hplane => forall_lt_reply ?_⟩
  rw [hescaped, htext]
  refine forall_lt_encode_iff.mpr fun c hc => ?_
  rcases hchars c hc with hmem | hascii
  · exact hplane c hmem
  · exact Nat.lt_trans hascii (by decide)

theorem nativeRequest_of_valid {σ : Type} (env : ClientEnv σ) (client : Option (Abi.AbiConfig × ClientConfig))
    (policy : ProtocolPolicy) {call : NativeCall} (hvalid : call.Valid) (w : World σ) :
    nativeRequest env client policy call w =
      ⟨cStr (reply (Abi.requestSync env client policy call.request ⟨false, responseCapacity⟩ w).val),
        (Abi.requestSync env client policy call.request ⟨false, responseCapacity⟩ w).post,
        (Abi.requestSync env client policy call.request ⟨false, responseCapacity⟩ w).events⟩ := by
  unfold nativeRequest
  rw [if_pos hvalid, Program.map_apply]

theorem requestNative_apply {σ JsonObject : Type} (java : JavaLibrary JsonObject) (env : ClientEnv σ)
    (client : Option (Abi.AbiConfig × ClientConfig)) (policy : ProtocolPolicy) (call : NativeCall) (w : World σ) :
    requestNative java env client policy call w =
      ⟨javaResponse java (nativeRequest env client policy call w).val,
        (nativeRequest env client policy call w).post, (nativeRequest env client policy call w).events⟩ := by
  unfold requestNative
  rw [Program.map_apply]

theorem nativeRequest_of_not_valid {σ : Type} (env : ClientEnv σ)
    (client : Option (Abi.AbiConfig × ClientConfig)) (policy : ProtocolPolicy) {call : NativeCall}
    (hvalid : ¬ call.Valid) (w : World σ) : nativeRequest env client policy call w = ⟨invalidReply, w, []⟩ := by
  unfold nativeRequest
  rw [if_neg hvalid, Program.pure_apply]

theorem javaResponse_invalidReply {JsonObject : Type} {java : JavaLibrary JsonObject} (hjava : java.Documented) :
    javaResponse java invalidReply = some refused := by
  have htext : invalidReply = objectText
      [(ascii "result", intText (-2)), (ascii "error", 34 :: (ascii "INVALID_ARGUMENT" ++ [34]))] := by
    decide +kernel
  have hreads : Reads (.object
      [("result".toList, .int (-2)), ("error".toList, .string "INVALID_ARGUMENT".toList)]) invalidReply := by
    rw [htext]
    exact reads_object (.cons (readsMember_of_plain (by decide) (reads_int _))
      (.cons (readsMember_of_plain (by decide) (reads_string (decode_ascii (by decide)))) .nil))
  obtain ⟨json, hjson, hshows⟩ := javaResponse_of_reads hjava hreads
    (Monitor.forall_lt_of_all (by decide +kernel)) (by decide)
  rw [hjson]
  unfold JavaResponse.ofJson refused
  rw [hshows.int (List.mem_of_getElem? (i := 0) rfl) (by decide),
    hshows.string (List.mem_of_getElem? (i := 1) rfl), hshows.absentInt (by decide), hshows.absentInt (by decide),
    hshows.absentInt (by decide), hshows.absentLong (by decide), hshows.absentLong (by decide),
    hshows.absentLong (by decide), hshows.absentLong (by decide), hshows.absentLong (by decide),
    hshows.absentLong (by decide), hshows.absentString (by decide)]
  rfl

/-- **A request of an Android application**: when its arguments make a request, that is made once across the C
interface and leaves behind what it leaves behind, and the text that the call answers with says every member of
the result and the characters of the body that was copied; a body in UTF-8 is its text.  The response in Java
has all of them, unless a character of the body is beyond the first plane: `NewStringUTF` does not promise to
take those.  Other arguments are refused, and nothing happens. -/
theorem requestNative_spec {σ JsonObject : Type} {java : JavaLibrary JsonObject} (hjava : java.Documented)
    (env : ClientEnv σ) (client : Option (Abi.AbiConfig × ClientConfig)) (policy : ProtocolPolicy)
    (call : NativeCall) (w : World σ) :
    let response := requestNative java env client policy call w
    let sync := Abi.requestSync env client policy call.request ⟨false, responseCapacity⟩ w
    (call.Valid → response.post = sync.post ∧ response.events = sync.events ∧
      ∃ pieces, IsReading sync.val.copied pieces ∧
        (∀ cs, sync.val.copied = encode cs → pieces.map charOf = cs) ∧
        read (nativeRequest env client policy call w).val =
          some (.object (replyMembers sync.val (pieces.map charOf))) ∧
        (InTypes sync.val.info → (∀ c ∈ pieces.map charOf, c.toNat < 0x10000) →
          response.val = some (view sync.val (pieces.map charOf)))) ∧
    (¬ call.Valid → response.post = w ∧ response.events = [] ∧ response.val = some refused) := by
  dsimp only
  constructor
  · intro hvalid
    obtain ⟨hok, hfailed⟩ := copied_requestSync env client policy call.request ⟨false, responseCapacity⟩ w
    obtain ⟨pieces, hpieces, hreads, hplane⟩ := exists_reads_reply hok hfailed
    rw [requestNative_apply, nativeRequest_of_valid env client policy hvalid w]
    dsimp only
    -- the text that is answered with has no zero byte, so Java is handed all of it
    rw [cStr_eq_self hreads.zero_notMem]
    refine ⟨rfl, rfl, pieces, hpieces, fun cs hcs => ?_, read_of_reads hreads, fun hinfo hbody => ?_⟩
    · have hreading : IsReading (encode cs) pieces := hcs ▸ hpieces
      rw [hreading.eq_of_encode, List.map_map]
      exact List.map_id cs
    -- the library reads the object that the text is a text of
    · obtain ⟨json, hjson, hshows⟩ := javaResponse_of_reads hjava hreads (hplane hbody)
        (nodup_replyMembers _ _)
      rw [hjson, ofJson_replyMembers hshows hinfo]
  · intro hvalid
    rw [requestNative_apply, nativeRequest_of_not_valid env client policy hvalid w]
    exact ⟨rfl, rfl, javaResponse_invalidReply hjava⟩

/-! ### A library that does so -/

/-- The characters of code units. -/
def ofUtf16 : JavaString → List Char
  | high :: low :: units =>
    if 0xd800 ≤ high ∧ high < 0xdc00 then
      Char.ofNat (0x10000 + (high.toNat - 0xd800) * 0x400 + (low.toNat - 0xdc00)) :: ofUtf16 units
    else Char.ofNat high.toNat :: ofUtf16 (low :: units)
  | [unit] => [Char.ofNat unit.toNat]
  | [] => []

theorem ofUtf16_cons {unit : UInt16} (h : ¬ (0xd800 ≤ unit ∧ unit < 0xdc00)) (units : JavaString) :
    ofUtf16 (unit :: units) = Char.ofNat unit.toNat :: ofUtf16 units := by
  cases units with
  | nil => rfl
  | cons low units => rw [ofUtf16, if_neg h]

theorem ofUtf16_utf16 (cs : List Char) : ofUtf16 (utf16 cs) = cs := by
  induction cs with
  | nil => rfl
  | cons c cs ih =>
    have hvalid : c.val.toNat < 0xd800 ∨ 0xdfff < c.val.toNat ∧ c.val.toNat < 0x110000 := c.valid
    have hnat : c.toNat = c.val.toNat := rfl
    rw [utf16, List.flatMap_cons, ← utf16, utf16Char]
    -- one code unit, or a pair of surrogates
    split_ifs with hplane
    · have hunit : (UInt16.ofNat c.toNat).toNat = c.toNat := UInt16.toNat_ofNat_of_lt' hplane
      rw [List.singleton_append, ofUtf16_cons, hunit, Char.ofNat_toNat, ih]
      rw [UInt16.le_iff_toNat_le, UInt16.lt_iff_toNat_lt, hunit]
      simp only [UInt16.reduceToNat]
      omega
    · have hsize : UInt16.size = 0x10000 := rfl
      have hhigh : (UInt16.ofNat (0xd800 + (c.toNat - 0x10000) / 0x400)).toNat =
          0xd800 + (c.toNat - 0x10000) / 0x400 := UInt16.toNat_ofNat_of_lt' (by rw [hsize]; omega)
      have hlow : (UInt16.ofNat (0xdc00 + (c.toNat - 0x10000) % 0x400)).toNat =
          0xdc00 + (c.toNat - 0x10000) % 0x400 := UInt16.toNat_ofNat_of_lt' (by rw [hsize]; omega)
      rw [List.cons_append, List.singleton_append, ofUtf16, if_pos, hhigh, hlow, ih]
      · have hsum : 0x10000 + (0xd800 + (c.toNat - 0x10000) / 0x400 - 0xd800) * 0x400 +
            (0xdc00 + (c.toNat - 0x10000) % 0x400 - 0xdc00) = c.toNat := by omega
        rw [hsum, Char.ofNat_toNat]
      · rw [UInt16.le_iff_toNat_le, UInt16.lt_iff_toNat_lt, hhigh]
        simp only [UInt16.reduceToNat]
        omega

/-- The member of a name. -/
def member (members : List (List Char × Value)) (name : String) : Option Value :=
  (members.find? fun m => m.1 == name.toList).map (·.2)

theorem member_of_mem {members : List (List Char × Value)} (hnames : (members.map Prod.fst).Nodup) {name : String}
    {v : Value} (h : (name.toList, v) ∈ members) : member members name = some v := by
  induction members with
  | nil => cases h
  | cons m members ih =>
    rw [List.map_cons, List.nodup_cons] at hnames
    unfold member
    rw [List.find?_cons]
    rcases List.mem_cons.mp h with rfl | h
    · simp
    · have hne : (m.1 == name.toList) = false := by
        rw [beq_eq_false_iff_ne]
        intro heq
        exact hnames.1 (heq ▸ List.mem_map_of_mem h)
      rw [hne]
      exact ih hnames.2 h

theorem member_of_notMem {members : List (List Char × Value)} {name : String}
    (h : name.toList ∉ members.map Prod.fst) : member members name = none := by
  unfold member
  rw [Option.map_eq_none_iff, List.find?_eq_none]
  intro m hm heq
  exact h (beq_iff_eq.mp heq ▸ List.mem_map_of_mem hm)

/-- The integer that a number is. -/
def integerOf (text : List Char) : Option ℤ :=
  let digits := if text.head? = some '-' then text.tail else text
  if digits ≠ [] ∧ digits.all Char.isDigit then
    let n := Nat.ofDigits (10 : ℕ) (digits.map fun c => c.toNat - 48).reverse
    some (if text.head? = some '-' then -(n : ℤ) else n)
  else none

theorem digit_toNat : ∀ b : UInt8, (digitVal 10 b).isSome →
    (Char.ofNat b.toNat).toNat - 48 = (digitVal 10 b).getD 0 ∧ Char.ofNat b.toNat ≠ '-' := by
  decide +kernel

/-- The value of digits. -/
theorem ofDigits_chars {ds : Bytes} (hds : AllDigits 10 ds) :
    Nat.ofDigits (10 : ℕ) ((chars ds).map fun c => c.toNat - 48).reverse = digitsValue 10 ds := by
  unfold digitsValue chars
  rw [List.map_map]
  congr 2
  exact List.map_congr_left fun b hb => (digit_toNat b (hds b hb)).1

/-- **An integer is read back.** -/
theorem integerOf_intText (n : ℤ) : integerOf (chars (intText n)) = some n := by
  have hds := decimal_allDigits n.natAbs
  have hne : chars (decimal n.natAbs) ≠ [] := by simpa [chars] using decimal_ne_nil n.natAbs
  have hall : (chars (decimal n.natAbs)).all Char.isDigit = true :=
    List.all_eq_true.mpr (NumberText.isDigit_of_mem_chars hds)
  have hvalue := ofDigits_chars hds
  rw [digitsValue_decimal] at hvalue
  unfold intText
  split_ifs with hneg
  · have hcons : chars (45 :: decimal n.natAbs) = '-' :: chars (decimal n.natAbs) := rfl
    rw [hcons]
    unfold integerOf
    rw [List.head?_cons, if_pos rfl, List.tail_cons]
    dsimp only
    rw [if_pos ⟨hne, hall⟩, if_pos rfl, hvalue]
    congr 1
    omega
  · have hhead : (chars (decimal n.natAbs)).head? ≠ some '-' := by
      obtain ⟨b, ds, heq⟩ := List.exists_cons_of_ne_nil (decimal_ne_nil n.natAbs)
      rw [heq] at hds ⊢
      simpa [chars] using (digit_toNat b (hds b List.mem_cons_self)).2
    unfold integerOf
    rw [if_neg hhead]
    dsimp only
    rw [if_pos ⟨hne, hall⟩, if_neg hhead, hvalue]
    congr 1
    omega

/-- The integer of a name. -/
def optInteger (members : List (List Char × Value)) (name : String) (fallback : ℤ) : ℤ :=
  match member members name with
  | some (.number text) => (integerOf text).getD fallback
  | _ => fallback

theorem optInteger_of_mem {members : List (List Char × Value)} (hnames : (members.map Prod.fst).Nodup)
    {name : String} {n : ℤ} (h : (name.toList, .int n) ∈ members) (fallback : ℤ) :
    optInteger members name fallback = n := by
  unfold optInteger
  rw [member_of_mem hnames h]
  dsimp only [Value.int]
  rw [integerOf_intText, Option.getD_some]

theorem optInteger_of_notMem {members : List (List Char × Value)} {name : String}
    (h : name.toList ∉ members.map Prod.fst) (fallback : ℤ) : optInteger members name fallback = fallback := by
  unfold optInteger
  rw [member_of_notMem h]

/-- A library that takes UTF-8 and reads the texts of JSON strictly. -/
def strictLibrary : JavaLibrary (List (List Char × Value)) where
  newStringUTF text := utf16 ((Utf8.decode text).getD [])
  jsonObject text :=
    match read (encode (ofUtf16 text)) with
    | some (.object members) => some members
    | _ => none
  optInt := optInteger
  optLong := optInteger
  optString members name fallback :=
    match member members name with
    | some (.string text) => utf16 text
    | _ => fallback

theorem documented_strictLibrary : strictLibrary.Documented where
  newStringUTF := by
    intro cs _
    dsimp only [strictLibrary]
    rw [decode_eq_some_iff.mpr rfl, Option.getD_some]
  jsonObject := by
    intro cs members hread hnames
    refine ⟨members, ?_, ?_⟩
    · dsimp only [strictLibrary]
      rw [ofUtf16_utf16, hread]
    · exact
        { int := fun h _ => optInteger_of_mem hnames h
          long := fun h _ => optInteger_of_mem hnames h
          string := fun h _ => by
            dsimp only [strictLibrary]
            rw [member_of_mem hnames h]
          absentInt := optInteger_of_notMem
          absentLong := optInteger_of_notMem
          absentString := fun h _ => by
            dsimp only [strictLibrary]
            rw [member_of_notMem h] }

/-- A `GET` whose answer has six bytes. -/
def getSix : NativeCall where
  host := Abi.plainGet.host
  port := 443
  method := Abi.plainGet.method
  path := Abi.plainGet.path

theorem requestNative_getSix :
    (requestNative strictLibrary (Abi.readsFrom Abi.sixBytes) (some ({}, {})) .http11Only getSix ⟨0, ∅⟩).val =
      some
        { result := 0, error := utf16 "OK".toList, status := 200, protocol := 1, degraded := false, bodySize := 6,
          dnsMs := 0, connectMs := -1, tlsMs := -1, ttfbMs := -1, totalMs := 0, body := utf16 "abcdef".toList } ∧
    (requestNative strictLibrary (Abi.readsFrom Abi.sixBytes) (some ({}, {})) .http11Only
      { getSix with port := 0 } ⟨0, ∅⟩).val = some refused := by
  have hsync : (Abi.requestSync (Abi.readsFrom Abi.sixBytes) (some ({}, {})) .http11Only getSix.request
      ⟨false, responseCapacity⟩ ⟨0, ∅⟩).val =
      { result := .ok, copied := encode "abcdef".toList
        info :=
          { httpStatus := 200, protocol := .http11, bodySize := 6, bodyCopied := 6, connectMs := -1, tlsMs := -1
            ttfbMs := -1 } } := by
    decide +kernel
  constructor
  · obtain ⟨-, -, pieces, -, htext, -, hview⟩ := (requestNative_spec documented_strictLibrary
      (Abi.readsFrom Abi.sixBytes) (some ({}, {})) .http11Only getSix ⟨0, ∅⟩).1 (by decide)
    rw [hsync] at htext hview
    rw [htext _ rfl] at hview
    have hascii : Ascii "abcdef".toList := ascii_of_all (by decide)
    exact hview (by constructor <;> decide) fun c hc => (hascii c hc).trans (by decide)
  · exact ((requestNative_spec documented_strictLibrary _ _ _ { getSix with port := 0 } _).2 (by decide)).2.2

/-! ### The headers of a text -/

/-- A header as an application writes it. -/
def headerLine (header : Header) : Bytes := header.name ++ 58 :: 32 :: header.value

/-- The headers, one on each line. -/
def headerText (headers : List Header) : Bytes := [10].intercalate (headers.map headerLine)

/-- A header that the C interface takes, with a value that does not begin with a blank. -/
structure Sendable (header : Header) : Prop where
  accepted : Abi.acceptHeader ⟨some (cString header.name), some (cString header.value)⟩ = some header
  value : header.value.head? ≠ some 32

theorem Sendable.checks {header : Header} (h : Sendable header) :
    Abi.validToken header.name = true ∧ Abi.containsCrlf header.value = false ∧
      cStr header.name = header.name ∧ cStr header.value = header.value := by
  have haccepted := h.accepted
  unfold Abi.acceptHeader at haccepted
  simp only [Option.bind_eq_bind, Option.bind_some] at haccepted
  split_ifs at haccepted with hchecks
  have hheader := Option.some.inj haccepted
  have hname : cStr header.name = header.name := congrArg Header.name hheader
  have hvalue : cStr header.value = header.value := congrArg Header.value hheader
  simp only [cString, hname, hvalue, Bool.and_eq_true, Bool.not_eq_true'] at hchecks
  exact ⟨hchecks.1.1.1, hchecks.1.2, hname, hvalue⟩

/-- No colon and no line end is a part of a token. -/
theorem notMem_of_validToken {name : Bytes} (h : Abi.validToken name = true) : 58 ∉ name ∧ 10 ∉ name := by
  unfold Abi.validToken at h
  rw [Bool.and_eq_true, List.all_eq_true] at h
  have hcolon : (isAlnum 58 || (ascii "!#$%&'*+-.^_`|~").contains 58) = false := by decide
  have hline : (isAlnum 10 || (ascii "!#$%&'*+-.^_`|~").contains 10) = false := by decide
  constructor
  · intro hmem
    have := h.2 58 hmem
    rw [hcolon] at this
    cases this
  · intro hmem
    have := h.2 10 hmem
    rw [hline] at this
    cases this

theorem notMem_of_containsCrlf {value : Bytes} (h : Abi.containsCrlf value = false) : 10 ∉ value := by
  unfold Abi.containsCrlf at h
  rw [List.any_eq_false] at h
  intro hmem
  simpa using h 10 hmem

theorem parseLine_headerLine {header : Header} (h : Sendable header) :
    parseLine (headerLine header) = some (header.name, header.value) := by
  obtain ⟨htoken, -, -, -⟩ := h.checks
  obtain ⟨hcolon, -⟩ := notMem_of_validToken htoken
  have hne : header.name ≠ [] := by
    rintro heq
    rw [heq] at htoken
    cases htoken
  -- a token has no colon, so the first colon is the one behind the name
  have hfind : find [58] (headerLine header) = some header.name.length := by
    unfold headerLine
    rw [find_append_of_not_mem hcolon, find]
    simp
  have hblank : (32 :: header.value).dropWhile (· == 32) = header.value := by
    have hvalue := h.value
    cases hv : header.value with
    | nil => rfl
    | cons c value =>
      rw [hv] at hvalue
      have hc : c ≠ 32 := by simpa using hvalue
      simp [hc]
  unfold parseLine
  rw [hfind]
  dsimp only
  rw [if_pos (List.length_pos_of_ne_nil hne)]
  unfold headerLine
  rw [List.take_left, ← List.drop_drop, List.drop_left]
  show some (header.name, (32 :: header.value).dropWhile (· == 32)) = _
  rw [hblank]

/-- **The headers of a text come out as they went in.** -/
theorem parseHeaders_headerText {headers : List Header} (hne : headers ≠ []) (h : ∀ x ∈ headers, Sendable x) :
    parseHeaders (headerText headers) = headers.map fun x => (x.name, x.value) := by
  have hsplit : (headerText headers).splitOn 10 = headers.map headerLine := by
    refine List.splitOn_intercalate 10 ?_ (by simpa using hne)
    intro line hline hmem
    obtain ⟨header, hheader, rfl⟩ := List.mem_map.mp hline
    obtain ⟨htoken, hcrlf, -, -⟩ := (h header hheader).checks
    rcases List.mem_append.mp hmem with hname | hvalue
    · exact (notMem_of_validToken htoken).2 hname
    · simp only [List.mem_cons] at hvalue
      rcases hvalue with hvalue | hvalue | hvalue
      · cases hvalue
      · cases hvalue
      · exact notMem_of_containsCrlf hcrlf hvalue
  unfold parseHeaders
  rw [hsplit, List.filterMap_map, ← List.filterMap_eq_map]
  refine List.filterMap_congr fun header hheader => ?_
  exact parseLine_headerLine (h header hheader)

theorem notMem_of_cStr {s : Bytes} (h : cStr s = s) : (0 : UInt8) ∉ s := by
  have hno := (cString s).no_nul
  have hbytes : (cString s).bytes = s := h
  rwa [hbytes] at hno

/-- What is in no part and not between them is in no text of the parts. -/
theorem notMem_intercalate {b : UInt8} {separator : Bytes} (hseparator : b ∉ separator) :
    ∀ {parts : List Bytes}, (∀ x ∈ parts, b ∉ x) → b ∉ separator.intercalate parts
  | [], _ => by simp
  | [part], h => by simpa using h
  | first :: second :: parts, h => by
    rw [List.intercalate_cons_cons, List.append_assoc]
    have hrest := notMem_intercalate hseparator fun x hx => h x (List.mem_cons_of_mem _ hx)
    simp only [List.mem_append, not_or]
    exact ⟨h first List.mem_cons_self, hseparator, hrest⟩

theorem cStr_headerText {headers : List Header} (h : ∀ x ∈ headers, Sendable x) :
    cStr (headerText headers) = headerText headers := by
  refine cStr_eq_self (notMem_intercalate (by decide) ?_)
  intro line hline
  obtain ⟨header, hheader, rfl⟩ := List.mem_map.mp hline
  obtain ⟨-, -, hname, hvalue⟩ := (h header hheader).checks
  simp only [headerLine, List.mem_append, List.mem_cons, not_or]
  exact ⟨notMem_of_cStr hname, by decide, by decide, notMem_of_cStr hvalue⟩

theorem mapM_acceptHeader {headers : List Header} (h : ∀ x ∈ headers, Sendable x) :
    (headers.map fun x => (⟨some (cString x.name), some (cString x.value)⟩ : Abi.AbiHeader)).mapM
      Abi.acceptHeader = some headers := by
  induction headers with
  | nil => rfl
  | cons header headers ih =>
    rw [List.map_cons, List.mapM_cons, (h header List.mem_cons_self).accepted,
      ih fun x hx => h x (List.mem_cons_of_mem _ hx)]
    rfl

/-- **The request of an application carries its headers**: of a text with one header on each line, the C
interface takes each as it is, in their order. -/
theorem acceptHeaders_headerText {headers : List Header} (h : ∀ x ∈ headers, Sendable x) (call : NativeCall)
    (hcall : call.headers = some (cString (headerText headers))) :
    Abi.acceptHeaders call.request = some headers := by
  have hnative : nativeHeaders call.headers =
      headers.map fun x => ⟨some (cString x.name), some (cString x.value)⟩ := by
    have htext : (cString (headerText headers)).bytes = headerText headers := cStr_headerText h
    rw [hcall]
    unfold nativeHeaders
    dsimp only
    rw [htext]
    -- without headers the text is empty, and nothing is parsed
    split_ifs with hempty
    · cases headers with
      | nil => rfl
      | cons header headers =>
        have hparse := parseHeaders_headerText (List.cons_ne_nil header headers) h
        rw [hempty] at hparse
        cases hparse
    · have hne : headers ≠ [] := by
        rintro rfl
        exact hempty rfl
      rw [parseHeaders_headerText hne h, List.map_map]
      rfl
  unfold Abi.acceptHeaders NativeCall.request
  dsimp only
  rw [List.take_length, hnative, mapM_acceptHeader h]

/-- Two headers. -/
def twoHeaders : List Header := [⟨ascii "Accept", ascii "*/*"⟩, ⟨ascii "X-Empty", []⟩]

theorem acceptHeaders_twoHeaders :
    Abi.acceptHeaders { getSix with headers := some (cString (ascii "Accept: */*\nX-Empty: ")) }.request =
      some twoHeaders := by
  have htext : ascii "Accept: */*\nX-Empty: " = headerText twoHeaders := by decide
  rw [htext]
  refine acceptHeaders_headerText ?_ _ rfl
  intro x hx
  simp only [twoHeaders, List.mem_cons, List.not_mem_nil, or_false] at hx
  obtain rfl | rfl := hx <;> exact ⟨by decide, by decide⟩

end Jni

end AsterNet
