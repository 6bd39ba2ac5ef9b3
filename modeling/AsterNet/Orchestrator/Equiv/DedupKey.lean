import AsterNet.Abi.Equiv.Accepted
import AsterNet.Orchestrator.Equiv.Coalescer

/-!
# The key of a shared flight

`dedup_key` is a text of lines, and `is_shareable` admits only requests whose every field is in one of
them or has a fixed value.

* `sameRequest_of_dedupKey_eq`: the key of a shareable request determines it.
* `plain_of_isShareable`: what a shareable request cannot carry.
* `flights_not_mixed`: both, and that a follower in a coalescer gets the response to its own request.
-/

namespace AsterNet.Orchestrator

open ByteString

/-- A header as the key has it. -/
def keyHeader (header : Header) : Header := { header with name := lower header.name }

/-- Two contexts ask for the same. -/
structure SameRequest (a b : RequestContext) : Prop where
  host : a.request.host = b.request.host
  port : a.request.port = b.request.port
  method : a.request.method = b.request.method
  path : a.request.path = b.request.path
  policy : a.policy = b.policy
  networkEpoch : a.networkEpoch = b.networkEpoch
  maxResponseBodyBytes : a.request.maxResponseBodyBytes = b.request.maxResponseBodyBytes
  timeoutMs : a.request.timeoutMs = b.request.timeoutMs
  maxRetries : a.maxRetries = b.maxRetries
  headers : a.request.headers.map keyHeader = b.request.headers.map keyHeader

/-- A context whose texts hold no CR or LF, as the C interface sees to it. -/
structure NoBreaks (context : RequestContext) : Prop where
  host : Abi.containsCrlf context.request.host = false
  path : Abi.containsCrlf context.request.path = false
  headers : ∀ header ∈ context.request.headers, Abi.containsCrlf header.value = false

/-- The C interface passes on no CR or LF. -/
theorem noBreaks_of_internalRequest {config : Abi.AbiConfig} {request : Abi.AbiRequest}
    {context : RequestContext} (hacc : Abi.internalRequest config request = some context.request) :
    NoBreaks context := by
  have haccepted := Abi.accepted_of_internalRequest hacc
  have hhost := haccepted.host
  have hpath := haccepted.path
  rw [Abi.validHost, Bool.and_eq_true] at hhost
  rw [Abi.validPath, Bool.and_eq_true] at hpath
  exact ⟨Abi.containsCrlf_of_noControls hhost.2, Abi.containsCrlf_of_noControls hpath.2,
    fun header hmem => (haccepted.headers header hmem).no_crlf⟩

/-- What a shareable context is like. -/
structure Plain (context : RequestContext) : Prop where
  method : context.request.method = ascii "GET" ∨ context.request.method = ascii "HEAD"
  body : context.request.body = []
  connectHost : context.request.connectHost = []
  caCertPem : context.request.caCertPem = []
  headers : ∀ header ∈ context.request.headers, isDedupHeader (lower header.name) = true ∧
    lower header.name ≠ ascii "authorization" ∧ lower header.name ≠ ascii "cookie" ∧
    lower header.name ≠ ascii "proxy-authorization"

theorem plain_of_isShareable {context : RequestContext} (h : isShareable context = true) :
    Plain context := by
  simp only [isShareable, Bool.and_eq_true, Bool.or_eq_true, beq_iff_eq, bne_iff_ne,
    List.isEmpty_iff, List.all_eq_true, decide_eq_true_eq] at h
  obtain ⟨⟨⟨⟨⟨⟨-, hmethod⟩, hbody⟩, hconnect⟩, hca⟩, -⟩, hheaders⟩ := h
  refine ⟨hmethod, hbody, hconnect, hca, fun header hmem => ?_⟩
  obtain ⟨⟨⟨⟨hauth, hcookie⟩, hproxy⟩, hdedup⟩, -⟩ := hheaders header hmem
  exact ⟨hdedup, hauth, hcookie, hproxy⟩

/-! ### The lines of a key -/

/-- The lines of `dedup_key`, when every header is in it. -/
def keyLines (context : RequestContext) : List Bytes :=
  [context.request.host, decimal context.request.port.toNat, context.request.method,
    context.request.path, signed (policyNumber context.policy), decimal context.networkEpoch,
    decimal context.request.maxResponseBodyBytes.toNat, signed context.request.timeoutMs,
    signed context.maxRetries] ++
    context.request.headers.map fun header => lower header.name ++ 58 :: header.value

theorem dedupKey_eq_unlines {context : RequestContext} (h : Plain context) :
    dedupKey context = unlines 10 (keyLines context) := by
  have hheaders : (context.request.headers.flatMap fun header =>
      if isDedupHeader (lower header.name) then lower header.name ++ 58 :: header.value ++ [10]
      else []) =
      unlines 10 (context.request.headers.map fun header =>
        lower header.name ++ 58 :: header.value) := by
    rw [unlines, List.flatMap_map]
    refine List.flatMap_congr fun header hmem => ?_
    rw [if_pos (h.headers header hmem).1]
  unfold dedupKey keyLines
  dsimp only
  rw [hheaders]
  simp only [unlines, List.flatMap_cons, List.flatMap_nil, List.flatMap_append, List.append_assoc,
    List.append_nil]

theorem notMem_signed {c : UInt8} (hc : digitVal 10 c = none) (hne : c ≠ 45) (n : ℤ) :
    c ∉ signed n := by
  unfold signed
  split_ifs
  · simp [hne, notMem_decimal hc]
  · exact notMem_decimal hc _

theorem signed_inj {n n' : ℤ} (h : signed n = signed n') : n = n' := by
  -- a minus sign is not a digit
  have hminus : ∀ {k k' : ℕ}, decimal k ≠ 45 :: decimal k' := by
    intro k k' heq
    have hmem : (45 : UInt8) ∉ decimal k := notMem_decimal (by decide) k
    rw [heq] at hmem
    exact hmem List.mem_cons_self
  unfold signed at h
  split_ifs at h with hn hn' hn'
  · have habs := decimal_inj.mp (List.cons.inj h).2
    omega
  · exact absurd h.symm hminus
  · exact absurd h hminus
  · have habs := decimal_inj.mp h
    omega

theorem policyNumber_inj {p p' : ProtocolPolicy} (h : policyNumber p = policyNumber p') :
    p = p' := by
  cases p with
  | other value =>
    cases p' with
    | other value' => exact congrArg _ (Subtype.ext h)
    | _ =>
      have hout := value.2
      simp only [policyNumber] at h
      omega
  | _ =>
    cases p' with
    | other value' =>
      have hout := value'.2
      simp only [policyNumber] at h
      omega
    | _ => first | rfl | cases h

theorem newline_notMem_of_containsCrlf {s : Bytes} (h : Abi.containsCrlf s = false) :
    (10 : UInt8) ∉ s := by
  intro hmem
  have hno := List.any_eq_false.mp h 10 hmem
  simp at hno

/-- No whitelisted name holds a colon or a line feed. -/
theorem notMem_of_isDedupHeader {name : Bytes} (h : isDedupHeader name = true) :
    (58 : UInt8) ∉ name ∧ (10 : UInt8) ∉ name := by
  simp only [isDedupHeader, Bool.or_eq_true, beq_iff_eq] at h
  rcases h with (((rfl | rfl) | rfl) | rfl) | rfl <;> decide

theorem newline_notMem_keyLines {context : RequestContext} (h : Plain context)
    (hclean : NoBreaks context) : ∀ l ∈ keyLines context, (10 : UInt8) ∉ l := by
  have hdigit : digitVal 10 10 = none := by decide
  intro l hl
  rcases List.mem_append.mp hl with hl | hl
  · simp only [List.mem_cons, List.not_mem_nil, or_false] at hl
    rcases hl with rfl | rfl | rfl | rfl | rfl | rfl | rfl | rfl | rfl
    · exact newline_notMem_of_containsCrlf hclean.host
    · exact notMem_decimal hdigit _
    · rcases h.method with hmethod | hmethod <;> rw [hmethod] <;> decide
    · exact newline_notMem_of_containsCrlf hclean.path
    · exact notMem_signed hdigit (by decide) _
    · exact notMem_decimal hdigit _
    · exact notMem_decimal hdigit _
    · exact notMem_signed hdigit (by decide) _
    · exact notMem_signed hdigit (by decide) _
  · obtain ⟨header, hmem, rfl⟩ := List.mem_map.mp hl
    have hname := (notMem_of_isDedupHeader (h.headers header hmem).1).2
    have hvalue := newline_notMem_of_containsCrlf (hclean.headers header hmem)
    simp [hname, hvalue]

/-- Header lines determine the headers, as no name holds a colon. -/
theorem map_keyHeader_eq {headers headers' : List Header}
    (hh : ∀ header ∈ headers, isDedupHeader (lower header.name) = true)
    (hh' : ∀ header ∈ headers', isDedupHeader (lower header.name) = true)
    (h : (headers.map fun header => lower header.name ++ 58 :: header.value) =
      headers'.map fun header => lower header.name ++ 58 :: header.value) :
    headers.map keyHeader = headers'.map keyHeader := by
  induction headers generalizing headers' with
  | nil =>
    obtain rfl : headers' = [] := by simpa using h.symm
    rfl
  | cons header headers ih =>
    cases headers' with
    | nil => cases h
    | cons header' headers' =>
      obtain ⟨hline, hrest⟩ := List.cons.inj h
      -- no name holds a colon, so the first one ends it
      have hname := (notMem_of_isDedupHeader (hh header List.mem_cons_self)).1
      have hname' := (notMem_of_isDedupHeader (hh' header' List.mem_cons_self)).1
      obtain ⟨heqname, heqvalue⟩ := append_cons_inj_of_notMem hname hname' hline
      have htail := ih (fun x hx => hh x (List.mem_cons_of_mem _ hx))
        (fun x hx => hh' x (List.mem_cons_of_mem _ hx)) hrest
      have hhead : keyHeader header = keyHeader header' := by
        rw [keyHeader, keyHeader, heqname, heqvalue]
      rw [List.map_cons, List.map_cons, hhead, htail]

/-- **The key of a shareable request determines it.** -/
theorem sameRequest_of_dedupKey_eq {a b : RequestContext} (ha : Plain a) (hb : Plain b)
    (hca : NoBreaks a) (hcb : NoBreaks b) (h : dedupKey a = dedupKey b) : SameRequest a b := by
  rw [dedupKey_eq_unlines ha, dedupKey_eq_unlines hb] at h
  have hlines := unlines_inj (newline_notMem_keyLines ha hca) (newline_notMem_keyLines hb hcb) h
  simp only [keyLines, List.cons_append, List.nil_append, List.cons.injEq] at hlines
  obtain ⟨hhost, hport, hmethod, hpath, hpolicy, hepoch, hbody, htimeout, hretries, hheaders⟩ := hlines
  exact {
    host := hhost
    port := UInt16.toNat_inj.mp (decimal_inj.mp hport)
    method := hmethod
    path := hpath
    policy := policyNumber_inj (signed_inj hpolicy)
    networkEpoch := decimal_inj.mp hepoch
    maxResponseBodyBytes := UInt64.toNat_inj.mp (decimal_inj.mp hbody)
    timeoutMs := signed_inj htimeout
    maxRetries := signed_inj hretries
    headers := map_keyHeader_eq (fun header hmem => (ha.headers header hmem).1)
      (fun header hmem => (hb.headers header hmem).1) hheaders }

/-! ### Flights -/

namespace Coalescer

open Transition

variable {ι : Type}

/-- A context that may share the flight under a key. -/
structure Keyed (key : Bytes) (context : RequestContext) : Prop where
  plain : Plain context
  clean : NoBreaks context
  dedupKey : dedupKey context = key

/-- The contexts in a coalescer stand under their keys. -/
structure KeyInv (m : Machine ι) (h : List (Event ι)) : Prop where
  joining : ∀ t call, m.phase t = .joining call → Plain call.context ∧ NoBreaks call.context
  registered : ∀ t f key context, .registered t f key context ∈ h → Keyed key context
  joined : ∀ t f key context, .joined t f key context ∈ h → Keyed key context

/-- The calls that enter hold no CR or LF in their texts. -/
def EntersClean : Act ι → Prop
  | .enter _ call => NoBreaks call.context
  | _ => True

section

variable {m m' : Machine ι} {h h' : List (Event ι)} {t : ι}

/-- Only the phases and the history matter. -/
theorem KeyInv.of_phase (hk : KeyInv m h) (hphase : m'.phase = m.phase) : KeyInv m' h :=
  ⟨fun t call ht => hk.joining t call (by rwa [hphase] at ht), hk.registered, hk.joined⟩

theorem KeyInv.append (hk : KeyInv m h) {e : Event ι}
    (hr : ∀ t f key context, .registered t f key context = e → Keyed key context)
    (hj : ∀ t f key context, .joined t f key context = e → Keyed key context) :
    KeyInv m (h ++ [e]) := by
  refine ⟨hk.joining, fun t f key context hmem => ?_, fun t f key context hmem => ?_⟩
  · rcases List.mem_append.mp hmem with hmem | hmem
    · exact hk.registered t f key context hmem
    · exact hr t f key context (List.mem_singleton.mp hmem)
  · rcases List.mem_append.mp hmem with hmem | hmem
    · exact hk.joined t f key context hmem
    · exact hj t f key context (List.mem_singleton.mp hmem)

/-- An event that neither registers nor joins. -/
theorem KeyInv.append_of_ne (hk : KeyInv m h) {e : Event ι}
    (hr : ∀ t f key context, e ≠ .registered t f key context)
    (hj : ∀ t f key context, e ≠ .joined t f key context) : KeyInv m (h ++ [e]) := by
  apply hk.append
  · intro t f key context heq
    exact absurd heq.symm (hr t f key context)
  · intro t f key context heq
    exact absurd heq.symm (hj t f key context)

variable [DecidableEq ι]

theorem KeyInv.goto (hk : KeyInv m h) {p : Phase}
    (hp : ∀ call, p = .joining call → Plain call.context ∧ NoBreaks call.context) :
    KeyInv (m.goto t p) h := by
  refine ⟨fun u call hphase => ?_, hk.registered, hk.joined⟩
  rcases eq_or_ne u t with rfl | hne
  · rw [Machine.goto_phase_self] at hphase
    exact hp call hphase
  · rw [Machine.goto_phase_of_ne m hne] at hphase
    exact hk.joining u call hphase

theorem KeyInv.join (hk : KeyInv m h) {call : Call} (hphase : m.phase t = .joining call) :
    KeyInv (m.join t call).1 (h ++ (m.join t call).2) := by
  obtain ⟨hplain, hclean⟩ := hk.joining t call hphase
  rcases hlookup : m.flights.lookup (dedupKey call.context) with - | f
  · rcases le_or_gt m.maxFlights m.flights.entries.length with hfull | hroom
    · rw [Machine.join_of_full m hlookup hfull, List.append_nil]
      exact hk.goto fun _ heq => by cases heq
    · rw [Machine.join_of_room m hlookup hroom]
      have happend : KeyInv m
          (h ++ [.registered t m.heap.length (dedupKey call.context) call.context]) := by
        apply hk.append
        · intro u f key context heq
          obtain ⟨-, -, rfl, rfl⟩ := Event.registered.inj heq
          exact ⟨hplain, hclean, rfl⟩
        · intro u f key context heq
          cases heq
      apply KeyInv.goto
      · exact happend.of_phase rfl
      · intro call' heq
        cases heq
  · rw [Machine.join_of_found m hlookup]
    have happend : KeyInv m (h ++ [.joined t f (dedupKey call.context) call.context]) := by
      apply hk.append
      · intro u f key context heq
        cases heq
      · intro u f key context heq
        obtain ⟨-, -, rfl, rfl⟩ := Event.joined.inj heq
        exact ⟨hplain, hclean, rfl⟩
    apply KeyInv.goto
    · exact happend.of_phase rfl
    · intro call' heq
      cases heq

theorem KeyInv.check (hk : KeyInv m h) (nowMs f : ℕ) (deadlineMs : Option ℤ) (call : Call) :
    KeyInv (m.check t nowMs f deadlineMs call).1 (h ++ (m.check t nowMs f deadlineMs call).2) := by
  rw [Machine.check]
  have hfree : KeyInv m.unlock h := hk.of_phase rfl
  rcases m.checked_cases nowMs f deadlineMs call with ⟨deadlineMs', hchecked⟩ |
    ⟨result, call', hchecked⟩
  · rw [hchecked, List.append_nil]
    exact hfree.goto fun _ heq => by cases heq
  · rw [hchecked]
    have happend : KeyInv m.unlock (h ++ [.returned t f result call']) :=
      hfree.append_of_ne (fun _ _ _ _ heq => by cases heq) fun _ _ _ _ heq => by cases heq
    exact happend.goto fun _ heq => by cases heq

theorem keyInv_of_steps {a : Act ι} (hk : KeyInv m h) (hc : EntersClean a)
    (hs : Steps (m, h) a (m', h')) : KeyInv m' h' := by
  cases a with
  | enter t call =>
    obtain ⟨-, rfl, rfl⟩ := steps_enter hs
    split_ifs with hshare
    · -- only a shareable context goes on to join
      refine hk.goto fun call' heq => ?_
      obtain rfl := Phase.joining.inj heq
      exact ⟨plain_of_isShareable hshare, hc⟩
    · exact hk.goto fun _ heq => by cases heq
  | acquire t =>
    obtain ⟨-, -, rfl, rfl⟩ := steps_acquire hs
    exact hk.of_phase rfl
  | join t =>
    obtain ⟨call, hphase, -, rfl, rfl⟩ := steps_join hs
    exact hk.join hphase
  | finish t ending =>
    have hleave : ∀ call, ending.leave ≠ .joining call := by
      intro call
      cases ending <;> exact Phase.noConfusion
    rcases steps_finish hs with ⟨call, -, rfl, rfl⟩ | ⟨call, -, rfl, rfl⟩ |
      ⟨f, key, call, -, rfl, rfl⟩
    · exact hk.goto fun call heq => absurd heq (hleave call)
    · have hfree : KeyInv m.unlock h' := hk.of_phase rfl
      exact hfree.goto fun call heq => absurd heq (hleave call)
    · have happend : KeyInv m (h ++ [.ended t f ending]) :=
        hk.append_of_ne (fun _ _ _ _ heq => by cases heq) fun _ _ _ _ heq => by cases heq
      exact happend.goto fun _ heq => by cases heq
  | publish t =>
    obtain ⟨f, key, result, call, -, -, rfl, rfl⟩ := steps_publish hs
    have happend : KeyInv m
        (h ++ [.published t f key result call.response call.context.dnsCacheHit]) :=
      hk.append_of_ne (fun _ _ _ _ heq => by cases heq) fun _ _ _ _ heq => by cases heq
    apply KeyInv.goto
    · exact happend.of_phase rfl
    · intro call' heq
      cases heq
  | check t nowMs =>
    obtain ⟨f, deadlineMs, call, -, -, rfl, rfl⟩ := steps_check hs
    exact hk.check nowMs f deadlineMs call
  | leave t =>
    obtain ⟨-, rfl, rfl⟩ := steps_leave hs
    exact hk.goto fun _ heq => by cases heq

/-- Every context in a history stands under its key, when the calls that enter are clean. -/
theorem keyInv_of_run {maxFlights : ℕ} {acts : List (Act ι)}
    (hrun : Run Steps (Machine.init maxFlights, []) acts (m, h)) (hacts : ∀ a ∈ acts, EntersClean a) :
    KeyInv m h := by
  have hinit : KeyInv (Machine.init maxFlights : Machine ι) [] := by
    refine ⟨fun t call hphase => ?_, fun t f key context hmem => ?_, fun t f key context hmem => ?_⟩
    · cases hphase
    · cases hmem
    · cases hmem
  exact (hrun.stepsMeet_of_forall hacts).invariant (I := fun s : Trace ι => KeyInv s.1 s.2)
    (fun _ _ _ hk hc hs => keyInv_of_steps hk hc hs) hinit

/-- Every follower gives up, or returns what was published for a request that asks for the same as its
own. -/
def Unmixed (h : List (Event ι)) : Prop :=
  ∀ before t f result call after, h = before ++ .returned t f result call :: after →
    (result = .errTimeout ∧ call.response.failureStage = "dedup_wait") ∨
    ∃ u key context context', .registered u f key context ∈ before ∧
      .published u f key result call.response call.context.dnsCacheHit ∈ before ∧
      .joined t f key context' ∈ before ∧ SameRequest context context'

theorem unmixed_of_run {maxFlights : ℕ} {acts : List (Act ι)}
    (hrun : Run Steps (Machine.init maxFlights, []) acts (m, h)) (hacts : ∀ a ∈ acts, EntersClean a) :
    Unmixed h := by
  intro before t f result call after heq
  have hi := inv_of_run hrun
  have hk := keyInv_of_run hrun hacts
  obtain ⟨key, ⟨context', hjoined⟩, ⟨htimeout, -, hstage⟩ | ⟨u, hpub⟩⟩ :=
    hi.justified before _ after heq
  · exact .inl ⟨htimeout, hstage⟩
  · -- the leader registered under the same key
    obtain ⟨first, second, hsplit⟩ := List.append_of_mem hpub
    have hfirst : h = first ++
        .published u f key result call.response call.context.dnsCacheHit ::
          (second ++ .returned t f result call :: after) := by
      rw [heq, hsplit, List.append_assoc, List.cons_append]
    obtain ⟨⟨context, hreg⟩, -⟩ := hi.justified first _ _ hfirst
    have hreg' : .registered u f key context ∈ before := by
      rw [hsplit]
      exact List.mem_append_left _ hreg
    have hmem : ∀ e ∈ before, e ∈ h := by
      intro e he
      rw [heq]
      exact List.mem_append_left _ he
    have hleader := hk.registered u f key context (hmem _ hreg')
    have hfollower := hk.joined t f key context' (hmem _ hjoined)
    refine .inr ⟨u, key, context, context', hreg', hpub, hjoined, ?_⟩
    exact sameRequest_of_dedupKey_eq hleader.plain hfollower.plain hleader.clean hfollower.clean
      (hleader.dedupKey.trans hfollower.dedupKey.symm)

end

end Coalescer

/-- **Flights are not mixed**: the key of a shareable request determines it; a shareable request has no
body, no credentials and nothing else the key leaves out; and among any threads a follower gets only the
response to its own request. -/
theorem flights_not_mixed :
    (∀ a b, isShareable a = true → isShareable b = true → NoBreaks a → NoBreaks b →
      dedupKey a = dedupKey b → SameRequest a b) ∧
    (∀ context, isShareable context = true → Plain context) ∧
    ∀ (ι : Type) [DecidableEq ι] (maxFlights : ℕ) (acts : List (Coalescer.Act ι))
      (m : Coalescer.Machine ι) (h : List (Coalescer.Event ι)),
      (∀ a ∈ acts, Coalescer.EntersClean a) →
      Transition.Run Coalescer.Steps (Coalescer.Machine.init maxFlights, []) acts (m, h) →
      Coalescer.Unmixed h := by
  refine ⟨?_, fun context h => plain_of_isShareable h, ?_⟩
  · intro a b ha hb hca hcb heq
    exact sameRequest_of_dedupKey_eq (plain_of_isShareable ha) (plain_of_isShareable hb) hca hcb heq
  · intro ι _ maxFlights acts m h hacts hrun
    exact Coalescer.unmixed_of_run hrun hacts

/-- Two spellings of a header name. -/
theorem sameRequest_accept :
    let context (name : String) : RequestContext :=
      { request :=
          { host := ascii "h", retrySafe := true, headers := [⟨ascii name, ascii "*/*"⟩] } }
    SameRequest (context "Accept") (context "ACCEPT") := by
  intro context
  have hclean : ∀ name, NoBreaks (context name) := by
    intro name
    refine ⟨rfl, rfl, ?_⟩
    intro header hmem
    obtain rfl := List.mem_singleton.mp hmem
    rfl
  exact flights_not_mixed.1 _ _ (by decide +kernel) (by decide +kernel) (hclean _) (hclean _)
    (by decide +kernel)

end AsterNet.Orchestrator
