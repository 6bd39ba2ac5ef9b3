import AsterNet.Engine.Http1.Equiv.Complete
import AsterNet.Lib.Transition

/-!
# What a kept connection has lost

A run of requests on one connection, each answered OK and with the connection kept.  The bytes of a
response are its header sections and its message, which is complete in its framing
(`complete_of_run`).  `consecutive_iff_stepsMeet`: the responses are consecutive on the stream if and
only if each chunked one ends where a read ends (`EndsAtRead`); otherwise the rest of that read is
thrown away, and the connection kept.

One response is `readResponse_kept`; a run goes through it once for each request.
-/

namespace AsterNet

namespace Http1

open ByteString Segmented Transition

/-! ### One response -/

/-- The message of a kept response is complete: a coding, or as many bytes as the length says. -/
def Reply.Complete (reply : Reply) : Prop :=
  ∃ headers, reply.sections.getLast? = some (headers ++ emptyLineMark) ∧
    if (scanHeaders headers).chunked then IsCoding reply.message reply.body
    else reply.message = reply.body ∧ reply.message.length = (scanHeaders headers).cl

/-- If the response that comes next on the stream is a chunked one, a read ends where it ends. -/
def EndsAtRead (req : Request) (source : Source) : Prop :=
  ∀ head, readHead [] 0 [] source = .ok head → noBodyStatus req head.httpStatus = false →
    (scanHeaders head.headers).chunked = true →
    ∀ m b rest, head.body ++ head.source.bytes = m ++ rest → IsCoding m b →
      ReadEndsAt source (head.sections.flatten ++ m)

section

variable {req : Request} {source : Source} {head : Head}

/-- A chunked response on the stream: what the loop read beyond the coding is lost, and it read nothing
beyond it exactly when a read ends there. -/
theorem readChunked_lost {maxBody : ℕ} {b : Body} (spec : HeadSpec [] [] source head)
    (hb : readChunked maxBody head.body head.source = .ok b) :
    ∃ lost, source.bytes = head.sections.flatten ++ b.message ++ lost ++ b.source.bytes ∧
      (lost = [] ↔ ReadEndsAt source (head.sections.flatten ++ b.message)) := by
  obtain ⟨-, -, -, lost, d, hd, hreads, hpassed⟩ := readChunked_ok hb
  obtain ⟨d₀, hreads₀, hd₀⟩ := spec.reads
  -- the header phase began with nothing read
  simp only [List.flatten_nil, List.nil_append] at hd₀
  have hbytes := spec.bytes
  simp only [List.flatten_nil, List.nil_append] at hbytes
  refine ⟨lost, ?_, ?_⟩
  · rw [← hbytes, hreads.bytes_eq, List.append_assoc, ← List.append_assoc head.body, hd]
    simp only [List.append_assoc]
  · constructor
    -- with nothing lost, the last read ended behind the message
    · rintro rfl
      rw [List.append_nil] at hd
      have hall := hreads₀.trans hreads
      rw [hd₀, List.append_assoc, hd] at hall
      exact ⟨b.source, hall⟩
    · rintro ⟨q, hq⟩
      by_contra hne
      have hpos := List.length_pos_of_ne_nil hne
      have hlen := congrArg List.length hd
      simp only [List.length_append] at hlen
      rcases Nat.lt_or_ge b.message.length head.body.length with hin | hout
      · -- the end of the message was already passed in the header phase
        have := spec.boundary _ q hq
        simp only [List.flatten_nil, List.nil_append, List.length_append] at this
        omega
      · -- it was passed in the chunked loop, where the decoder was not done yet
        have hle : d₀.length ≤ (head.sections.flatten ++ b.message).length := by
          rw [hd₀, List.length_append, List.length_append]
          omega
        obtain ⟨e, he, hre⟩ := hreads₀.exists_append hq hle
        rw [hd₀, List.append_assoc, List.append_cancel_left_eq] at he
        have hshort := congrArg List.length he
        rw [List.length_append] at hshort
        have := hpassed e q hre (by omega)
        rw [List.length_append] at this
        omega

/-- **A kept response.**  What was read is the response, perhaps something that is lost, and the rest
of the stream; nothing is lost exactly when a chunked response ends where a read ends. -/
theorem readResponse_kept {rest : Source} (hok : (readResponse req source).1.errCode = .ok)
    (hkept : (readResponse req source).2 = some rest) :
    (readResponse req source).1.Complete ∧
      ∃ lost, source.bytes = (readResponse req source).1.attributed ++ lost ++ rest.bytes ∧
        (lost = [] ↔ EndsAtRead req source) := by
  -- an OK answer has a head, a valid framing and a body within the limit
  obtain ⟨head, b, hread, hinvalid, hb, hmax⟩ := readResponse_ok hok
  have spec := readHead_spec hread
  have hreply := readResponse_of_ok hread hinvalid hb hmax
  rw [hreply] at hkept
  dsimp only at hkept
  split_ifs at hkept with hkeep
  obtain rfl := Option.some.inj hkept
  -- the connection is kept for a response with a body whose end is announced
  have hframed : noBodyStatus req head.httpStatus = false ∧
      ((scanHeaders head.headers).chunked = true ∨ (scanHeaders head.headers).cl ≠ npos) := by
    simp only [keepsConnection, Bool.not_eq_true', Bool.or_eq_false_iff, Bool.and_eq_false_iff,
      Bool.not_eq_false', beq_eq_false_iff_ne] at hkeep
    exact ⟨hkeep.1.2, hkeep.2⟩
  obtain ⟨hsome, hframed⟩ := hframed
  rw [hreply]
  unfold readBody at hb
  dsimp only at hb
  rw [if_neg (by rw [hsome]; simp)] at hb
  -- a chunked body loses what a read brings beyond it; a body of a known length loses nothing
  cases hchunked : (scanHeaders head.headers).chunked with
  | true =>
    rw [if_pos hchunked] at hb
    have hcoding := (readChunked_ok hb).2.2.1
    obtain ⟨lost, hbytes, hlost⟩ := readChunked_lost spec hb
    refine ⟨⟨head.headers, spec.last, by rw [if_pos hchunked]; exact hcoding⟩, lost, hbytes, ?_⟩
    have hbehind : head.body ++ head.source.bytes = b.message ++ (lost ++ b.source.bytes) := by
      have hall := spec.bytes
      simp only [List.flatten_nil, List.nil_append, hbytes, List.append_assoc,
        List.append_cancel_left_eq] at hall
      exact hall
    rw [hlost]
    -- the coding on the stream is unique, so the condition is about this message
    constructor
    · intro hends head' hread' _ _ m body rest hm hcoding'
      obtain rfl := Except.ok.inj (hread.symm.trans hread')
      obtain ⟨rfl, -⟩ := hcoding'.unique hcoding (hm.symm.trans hbehind)
      exact hends
    · intro hends
      exact hends head hread hsome hchunked b.message b.body _ hbehind hcoding
  | false =>
    have hcl := hframed.resolve_left (by rw [hchunked]; simp)
    rw [if_neg (by rw [hchunked]; simp), if_pos hcl] at hb
    obtain ⟨hbody, hmessage, hbytes, -⟩ := readLength_ok hb
    obtain ⟨-, -, hlong⟩ := readLength_ok_iff.mp ⟨b, hb⟩
    have hall := spec.bytes
    simp only [List.flatten_nil, List.nil_append] at hall
    refine ⟨⟨head.headers, spec.last, ?_⟩, [], ?_, ?_⟩
    · rw [if_neg (by rw [hchunked]; simp)]
      refine ⟨hmessage, ?_⟩
      rw [hmessage, hbody, List.length_take]
      exact min_eq_left hlong
    · rw [List.append_nil, Reply.attributed, List.append_assoc, hbytes, ← List.append_assoc, hall]
    -- the condition asks nothing of a body that is not chunked
    · refine iff_of_true rfl ?_
      intro head' hread' _ hchunked'
      obtain rfl := Except.ok.inj (hread.symm.trans hread')
      rw [hchunked] at hchunked'
      cases hchunked'

end

/-! ### Runs of requests -/

/-- A connection in use: the engine that holds it, its stream, and the replies so far. -/
structure Served where
  engine : Http1Engine
  source : Source
  replies : List Reply

/-- The next request on the connection, answered OK and with the connection kept.  Only the first one
may have opened it. -/
structure Serves (dial : Dial) (s : Served) (req : Request) (t : Served) : Prop where
  connected : ∃ key ssl reused,
    ensureConnection dial s.engine.settings s.engine.connection req = .ok ((key, ssl), reused) ∧
    (reused = true ∨ s.replies = []) ∧ ssl.source = s.source
  ok : (request dial s.engine req).1.errCode = .ok
  engine : t.engine = (request dial s.engine req).2
  kept : t.engine.connection.map (·.2.source) = some t.source
  replies : t.replies = s.replies ++ [(request dial s.engine req).1]

/-- The responses are consecutive on the stream, and end where it goes on. -/
def Consecutive (source : Source) (t : Served) : Prop :=
  source.bytes = t.replies.flatMap Reply.attributed ++ t.source.bytes

variable {dial : Dial} {s t : Served} {req : Request}

theorem Serves.deterministic (s : Served) (req : Request) (t u : Served) (h : Serves dial s req t)
    (h' : Serves dial s req u) : t = u := by
  obtain ⟨engine, source, replies⟩ := t
  obtain ⟨engine', source', replies'⟩ := u
  have hengine : engine = engine' := h.engine.trans h'.engine.symm
  subst hengine
  have hsource : source = source' := Option.some.inj (h.kept.symm.trans h'.kept)
  subst hsource
  have hreplies : replies = replies' := h.replies.trans h'.replies.symm
  rw [hreplies]

/-- One step of a run. -/
theorem Serves.spec (h : Serves dial s req t) : ∃ reply lost, t.replies = s.replies ++ [reply] ∧
    reply.Complete ∧ s.source.bytes = reply.attributed ++ lost ++ t.source.bytes ∧
    (lost = [] ↔ EndsAtRead req s.source) := by
  obtain ⟨key, ssl, reused, hc, -, hsource⟩ := h.connected
  obtain ⟨source, hsent⟩ := sent_of_ok h.ok
  have hsame : source = s.source := by
    obtain ⟨key', ssl', reused', _, _, hc', -, -, hsource'⟩ := hsent.connected
    obtain ⟨hconnection, -⟩ := Prod.mk.inj (Except.ok.inj (hc.symm.trans hc'))
    obtain ⟨-, rfl⟩ := Prod.mk.inj hconnection
    exact hsource'.symm.trans hsource
  subst hsame
  obtain ⟨⟨reused, hreply⟩, hconnection⟩ := request_of_sent hsent
  have hok : (readResponse req s.source).1.errCode = .ok := by
    have := h.ok
    rwa [hreply] at this
  have hkept : (readResponse req s.source).2 = some t.source := by
    rw [← hconnection, ← h.engine, h.kept]
  obtain ⟨hcomplete, lost, hbytes, hlost⟩ := readResponse_kept hok hkept
  refine ⟨_, lost, h.replies, ?_, ?_, hlost⟩
  · rw [hreply]
    exact hcomplete
  · rw [hreply]
    exact hbytes

/-- Every reply of a run is complete. -/
theorem complete_of_run {ls : List Request} (h : Run (Serves dial) s ls t)
    (hs : ∀ reply ∈ s.replies, reply.Complete) : ∀ reply ∈ t.replies, reply.Complete := by
  refine h.invariant (I := fun s => ∀ reply ∈ s.replies, reply.Complete) ?_ hs
  intro s req t hs hstep reply hreply
  obtain ⟨reply', -, hreplies, hcomplete, -⟩ := hstep.spec
  rw [hreplies, List.mem_append, List.mem_singleton] at hreply
  rcases hreply with hreply | rfl
  · exact hs reply hreply
  · exact hcomplete

/-- The bytes that are not lost. -/
def notLost (s : Served) : ℕ := (s.replies.flatMap Reply.attributed).length + s.source.bytes.length

/-- The condition on a step. -/
abbrev StepEndsAtRead (s : Served) (req : Request) : Prop := EndsAtRead req s.source

theorem notLost_of_serves (h : Serves dial s req t) :
    notLost t ≤ notLost s ∧ (notLost t = notLost s ↔ EndsAtRead req s.source) := by
  obtain ⟨reply, lost, hreplies, -, hbytes, hlost⟩ := h.spec
  have hlen : notLost s = notLost t + lost.length := by
    rw [notLost, notLost, hreplies, hbytes, List.flatMap_append, List.flatMap_singleton]
    simp only [List.length_append]
    omega
  rw [← hlost, ← List.length_eq_zero_iff]
  omega

/-- **When a kept connection is clean.**  In every run of requests on one connection each reply is a
complete response, and the responses are consecutive on the stream if and only if each chunked one
ends where a read ends. -/
theorem consecutive_iff_stepsMeet {engine : Http1Engine} {source : Source} {ls : List Request}
    (h : Run (Serves dial) ⟨engine, source, []⟩ ls t) :
    (∀ reply ∈ t.replies, reply.Complete) ∧
      (Consecutive source t ↔ StepsMeet (Serves dial) StepEndsAtRead ⟨engine, source, []⟩ ls t) := by
  refine ⟨complete_of_run h (fun _ hreply => absurd hreply List.not_mem_nil), ?_⟩
  -- the bytes not lost are the measure: a step keeps them exactly when it ends at a read
  have hiff := h.iff_stepsMeet Serves.deterministic notLost
    (fun s req t hc hs => (notLost_of_serves hs).2.mpr hc)
    (fun s req t hc hs => lt_of_le_of_ne (notLost_of_serves hs).1
      fun heq => hc ((notLost_of_serves hs).2.mp heq))
  constructor
  · intro hconsecutive
    rw [← hiff]
    have := congrArg List.length hconsecutive
    rw [List.length_append] at this
    simp only [notLost, List.flatMap_nil, List.length_nil]
    omega
  · intro hmeet
    refine hmeet.invariant (I := Consecutive source) ?_ rfl
    intro s req t hs hc hstep
    obtain ⟨reply, lost, hreplies, -, hbytes, hlost⟩ := hstep.spec
    rw [hlost.mpr hc, List.append_nil] at hbytes
    rw [Consecutive, hreplies, List.flatMap_append, List.flatMap_singleton, List.append_assoc, ← hbytes]
    exact hs

/-! ### One request on a connection -/

/-- The connection after one request that left `rest` of the stream. -/
def servedOnce (source rest : Source) : Served :=
  ⟨(request (dialTo source) {} fiveBytesRequest).2, rest,
    [(request (dialTo source) {} fiveBytesRequest).1]⟩

theorem run_servedOnce {source rest : Source}
    (hok : (request (dialTo source) {} fiveBytesRequest).1.errCode = .ok)
    (hkept : (request (dialTo source) {} fiveBytesRequest).2.connection.map (·.2.source) =
      some rest) :
    Run (Serves (dialTo source)) ⟨{}, source, []⟩ [fiveBytesRequest] (servedOnce source rest) :=
  .snoc .nil ⟨⟨_, _, false, rfl, .inr rfl, rfl⟩, hok, rfl, hkept, rfl⟩

/-- Nothing left to read. -/
def drained : Source := ⟨[[]], .eof⟩

theorem consecutive_helloSource_iff :
    (∀ reply ∈ (servedOnce helloSource drained).replies, reply.Complete) ∧
      (Consecutive helloSource (servedOnce helloSource drained) ↔
        StepsMeet (Serves (dialTo helloSource)) StepEndsAtRead ⟨{}, helloSource, []⟩
          [fiveBytesRequest] (servedOnce helloSource drained)) :=
  consecutive_iff_stepsMeet (run_servedOnce (by decide +kernel) (by decide +kernel))

/-- A chunked response and, in the same piece, the server's farewell. -/
def farewellSource : Source :=
  ⟨[helloMessage.bytes ++ ascii "HTTP/1.1 408 Request Timeout\r\n\r\n"], .eof⟩

theorem not_consecutive_farewell :
    ¬ ∀ (dial : Dial) (engine : Http1Engine) (source : Source) (ls : List Request) (t : Served),
      Run (Serves dial) ⟨engine, source, []⟩ ls t → Consecutive source t := by
  intro h
  have hok : (request (dialTo farewellSource) {} fiveBytesRequest).1.errCode = .ok := by
    decide +kernel
  have hkept : (request (dialTo farewellSource) {} fiveBytesRequest).2.connection.map
      (·.2.source) = some drained := by decide +kernel
  have hlost : ¬ Consecutive farewellSource (servedOnce farewellSource drained) := by
    unfold Consecutive
    decide +kernel
  exact hlost (h _ _ _ _ _ (run_servedOnce hok hkept))

end Http1

end AsterNet
