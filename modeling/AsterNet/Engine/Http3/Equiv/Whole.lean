import AsterNet.Engine.Http3.Equiv.Complete

/-!
# OK over HTTP/3 means a whole response

* `request_ok_iff`: whatever the callbacks bring, in any order and batching, the answer is OK exactly
  when every dispatched event was taken in and the stream has ended.
* `whole_of_ok`: so an answer of OK holds a whole response.
* `request_responsePieces`: and a header section, parts of a body within the limit and optional trailers,
  ended in any of the four ways, are answered with OK.
-/

namespace AsterNet

namespace Http3

open ByteString

variable {limit : ℕ} {ctx : RequestContext} {heard : Heard} {req : Request} {outside : Exchange}

/-! ### The dispatched events -/

/-- The events the loop dispatches before it stops. -/
def dispatched (ctx : RequestContext) : List (List Event) → List Event
  | [] => []
  | events :: polls =>
    if ctx.finished || ctx.failed then [] else events ++ dispatched (events.foldl handle ctx) polls

theorem poll_dispatched (ctx : RequestContext) (polls : List (List Event)) :
    (poll ctx polls).2 = (dispatched ctx polls).foldl handle ctx := by
  induction polls generalizing ctx with
  | nil => rfl
  | cons events polls ih =>
    unfold poll dispatched
    split_ifs
    · rfl
    · rw [ih, List.foldl_append]

/-- The events of a request. -/
def eventsOf (req : Request) (outside : Exchange) : List Event :=
  dispatched (newContext req) outside.polls

/-- Everything these events handed out. -/
def handedOutBy (events : List Event) : List (Piece × Bool) := events.flatMap Event.pieces

/-- What was heard in them. -/
def heardIn (events : List Event) : Heard := (handedOutBy events).foldl Heard.take {}

/-! ### When the answer is OK -/

theorem request_of_connected (h : outside.early = none) :
    request outside req = judge (poll (newContext req) outside.polls).1
      ((eventsOf req outside).foldl handle (newContext req)) := by
  rw [request, h, eventsOf, ← poll_dispatched]

theorem judge_ok_iff (timedOut : Bool) (ctx : RequestContext) :
    (judge timedOut ctx).errCode = .ok ↔ responseComplete ctx = true := by
  unfold judge
  split_ifs with hcomplete <;> simp [hcomplete]

/-- **When the answer is OK**: every event was taken in, and the stream has ended. -/
theorem request_ok_iff (hconnected : outside.early = none) :
    (request outside req).errCode = .ok ↔
      TakenAll req.maxResponseBodyBytes.toNat (newContext req) {} (eventsOf req outside) ∧
        (heardIn (eventsOf req outside)).ended = true := by
  rw [request_of_connected hconnected, judge_ok_iff, responseComplete]
  obtain ⟨htaken, hrefused⟩ := sound_foldl (sound_newContext req) (eventsOf req outside)
  by_cases hall : TakenAll req.maxResponseBodyBytes.toNat (newContext req) {} (eventsOf req outside)
  · have hsound := htaken hall
    have hended : ((eventsOf req outside).foldl handle (newContext req)).finished =
        (heardIn (eventsOf req outside)).ended := hsound.finished
    rw [hsound.responseFin, ← hsound.finished, hsound.not_failed, hended]
    refine ⟨fun hcomplete => ⟨hall, by simp_all⟩, fun h => ?_⟩
    rw [h.2, hsound.finished_gotStatus (hended.trans h.2)]
    rfl
  · rw [hrefused hall]
    exact ⟨fun hcomplete => by simp at hcomplete, fun h => absurd h.1 hall⟩

/-- The events that were taken in brought allowed pieces. -/
theorem allowsAll_of_takenAll {events : List Event} (h : TakenAll limit ctx heard events) :
    heard.AllowsAll limit (handedOutBy events) := by
  induction events generalizing ctx heard with
  | nil => trivial
  | cons event events ih =>
    rw [handedOutBy, List.flatMap_cons, Heard.allowsAll_append]
    refine ⟨?_, ih h.2⟩
    cases event with
    | readable notify => exact h.1.pieces
    | _ => trivial

theorem Heard.AllowsAll.one_status {pieces : List (Piece × Bool)} (h : heard.AllowsAll limit pieces) :
    ∀ piece ∈ pieces, ∀ fields, piece.1 = .initial fields → ∃ status, OneStatus fields status := by
  induction pieces generalizing heard with
  | nil => simp
  | cons piece pieces ih =>
    rw [List.forall_mem_cons]
    exact ⟨h.1.one_status, ih h.2⟩

/-- A status was announced in an initial section, and no later one announced another. -/
theorem exists_initial_of_status {pieces : List (Piece × Bool)} {status : ℤ}
    (h : (pieces.foldl Heard.take heard).status = some status) :
    heard.status = some status ∧ (∀ piece ∈ pieces, ∀ fields, piece.1 ≠ .initial fields) ∨
      ∃ before fields fin after, pieces = before ++ (.initial fields, fin) :: after ∧
        announced fields = some status ∧ ∀ piece ∈ after, ∀ fields, piece.1 ≠ .initial fields := by
  induction pieces generalizing heard with
  | nil => exact .inl ⟨h, by simp⟩
  | cons piece pieces ih =>
    rcases ih h with ⟨hstatus, hnone⟩ | ⟨before, fields, fin, after, rfl, hannounced, hnone⟩
    · obtain ⟨piece, fin⟩ := piece
      cases piece with
      | initial fields => exact .inr ⟨[], fields, fin, pieces, rfl, hstatus, hnone⟩
      | data bytes => exact .inl ⟨hstatus, List.forall_mem_cons.mpr ⟨Piece.data_ne_initial bytes, hnone⟩⟩
      | later fields =>
        exact .inl ⟨hstatus, List.forall_mem_cons.mpr ⟨Piece.later_ne_initial fields, hnone⟩⟩
    · exact .inr ⟨piece :: before, fields, fin, after, rfl, hannounced, hnone⟩

/-- The reply holds a whole response that these events brought. -/
structure Whole (req : Request) (events : List Event) (reply : Reply) : Prop where
  /-- A header section came, with exactly one well formed `:status`: the one that is answered. -/
  section_status : ∃ before fields fin after,
    handedOutBy events = before ++ (.initial fields, fin) :: after ∧
      OneStatus fields reply.httpStatus ∧ ∀ piece ∈ after, ∀ fields, piece.1 ≠ .initial fields
  /-- The end of the stream was signalled. -/
  ended : ∃ piece ∈ handedOutBy events, piece.2 = true
  /-- No failure was flagged. -/
  not_failed : (events.foldl handle (newContext req)).failed = false
  /-- The body is all its parts, in order. -/
  body_eq : reply.body = (handedOutBy events).flatMap fun piece => piece.1.content
  fits : reply.body.length ≤ req.maxResponseBodyBytes.toNat

/-- The answer is what was heard. -/
theorem reply_of_ok (hconnected : outside.early = none) (h : (request outside req).errCode = .ok) :
    ∃ status, (heardIn (eventsOf req outside)).status = some status ∧ request outside req =
      { errCode := .ok, httpStatus := status, body := (heardIn (eventsOf req outside)).content } := by
  obtain ⟨hall, hended⟩ := (request_ok_iff hconnected).mp h
  have hsound := (sound_foldl (sound_newContext req) (eventsOf req outside)).1 hall
  have hgot := hsound.finished_gotStatus (hsound.finished.trans hended)
  rw [hsound.gotStatus, Option.isSome_iff_exists] at hgot
  obtain ⟨status, hstatus⟩ := hgot
  refine ⟨status, hstatus, ?_⟩
  rw [request_of_connected hconnected]
  exact judge_of_sound hsound _ hended hstatus

/-- **OK means a whole response.** -/
theorem whole_of_ok (hconnected : outside.early = none)
    (h : (request outside req).errCode = .ok) :
    Whole req (eventsOf req outside) (request outside req) := by
  obtain ⟨hall, hended⟩ := (request_ok_iff hconnected).mp h
  have hsound := (sound_foldl (sound_newContext req) (eventsOf req outside)).1 hall
  obtain ⟨status, hstatus, hreply⟩ := reply_of_ok hconnected h
  have hcontent : (heardIn (eventsOf req outside)).content =
      (handedOutBy (eventsOf req outside)).flatMap fun piece => piece.1.content := by
    rw [heardIn, Heard.foldl_take_content, List.nil_append]
  rw [hreply]
  refine ⟨?_, ?_, hsound.not_failed, hcontent, hsound.fits⟩
  · rcases exists_initial_of_status hstatus with ⟨hnone, -⟩ | ⟨before, fields, fin, after, heq, hann, hrest⟩
    · cases hnone
    · refine ⟨before, fields, fin, after, heq, ?_, hrest⟩
      have hmem : (Piece.initial fields, fin) ∈ handedOutBy (eventsOf req outside) := by
        rw [heq]
        exact List.mem_append_right _ (List.mem_cons_self ..)
      obtain ⟨status', hone⟩ := (allowsAll_of_takenAll hall).one_status _ hmem fields rfl
      obtain rfl := Option.some.inj (hann.symm.trans (announced_of_oneStatus hone))
      exact hone
  · rw [heardIn, Heard.foldl_take_ended, Bool.false_or, List.any_eq_true] at hended
    exact hended

/-! ### Responses that are answered with OK -/

/-- The end of the stream comes with the last part. -/
def endAtLast (parts : List Piece) : List (Piece × Bool) :=
  parts.dropLast.map (·, false) ++ parts.getLast?.toList.map (·, true)

/-- What comes behind the header section: the parts of the body, perhaps trailers, and perhaps the end of
the stream alone. -/
def restParts (chunks : List Bytes) (trailers : Option (List Header)) (emptyFin : Bool) : List Piece :=
  chunks.map .data ++ trailers.toList.map .later ++ if emptyFin then [.data []] else []

/-- A response: the end of the stream comes with its last part, in any of four ways. -/
def responsePieces (fields : List Header) (chunks : List Bytes) (trailers : Option (List Header))
    (emptyFin : Bool) : List (Piece × Bool) :=
  endAtLast (.initial fields :: restParts chunks trailers emptyFin)

theorem endAtLast_concat (parts : List Piece) (last : Piece) :
    endAtLast (parts ++ [last]) = parts.map (·, false) ++ [(last, true)] := by
  simp [endAtLast]

theorem endAtLast_map_fst (parts : List Piece) : (endAtLast parts).map Prod.fst = parts := by
  rcases List.eq_nil_or_concat parts with rfl | ⟨front, last, rfl⟩
  · rfl
  · rw [List.concat_eq_append, endAtLast_concat, List.map_append, List.map_map]
    exact congrArg (· ++ [last]) (List.map_id front)

/-- Parts behind the first header section, none of which ends the response. -/
theorem allowsAll_open {parts : List Piece} (hrunning : heard.ended = false)
    (hparts : ∀ part ∈ parts, ∀ fields, part = .initial fields → ∃ status, OneStatus fields status)
    (hfits : heard.content.length + (parts.flatMap Piece.content).length ≤ limit) :
    heard.AllowsAll limit (parts.map (·, false)) ∧ InOrder heard (parts.map (·, false)) ∧
      ((parts.map (·, false)).foldl Heard.take heard).ended = false := by
  induction parts generalizing heard with
  | nil => exact ⟨trivial, trivial, hrunning⟩
  | cons part parts ih =>
    rw [List.flatMap_cons, List.length_append] at hfits
    have hcontent : (heard.take (part, false)).content.length =
        heard.content.length + part.content.length := by
      rw [Heard.take, List.length_append]
    have hended : (heard.take (part, false)).ended = false := by
      rw [Heard.take, hrunning]
      rfl
    obtain ⟨hallows, horder, hend⟩ := ih hended
      (fun part hmem => hparts part (List.mem_cons_of_mem _ hmem)) (by omega)
    have hopen : ¬ false = true := Bool.false_ne_true
    refine ⟨⟨⟨hparts part (List.mem_cons_self ..), ?_, fun h => absurd h hopen⟩, hallows⟩,
      ⟨hrunning, horder⟩, hend⟩
    rw [hcontent]
    omega

/-- The status stays while no other initial section comes. -/
theorem foldl_take_status {pieces : List (Piece × Bool)}
    (h : ∀ piece ∈ pieces, ∀ fields, piece.1 ≠ .initial fields) :
    (pieces.foldl Heard.take heard).status = heard.status := by
  induction pieces generalizing heard with
  | nil => rfl
  | cons piece pieces ih =>
    rw [List.forall_mem_cons] at h
    rw [List.foldl_cons, ih h.2]
    obtain ⟨piece, fin⟩ := piece
    cases piece with
    | initial fields => exact absurd rfl (h.1 fields)
    | data bytes => rfl
    | later fields => rfl

section

variable {fields : List Header} {status : ℤ} (chunks : List Bytes) (trailers : Option (List Header))
  (emptyFin : Bool)

theorem restParts_content : (restParts chunks trailers emptyFin).flatMap Piece.content =
    chunks.flatten := by
  have htrailers : (trailers.toList.map Piece.later).flatMap Piece.content = [] := by
    cases trailers <;> rfl
  have hend : (if emptyFin then [Piece.data []] else []).flatMap Piece.content = [] := by
    cases emptyFin <;> rfl
  rw [restParts, List.flatMap_append, List.flatMap_append, htrailers, hend, List.append_nil,
    List.append_nil, List.flatMap_map]
  exact List.flatMap_id'

theorem restParts_ne_initial : ∀ part ∈ restParts chunks trailers emptyFin, ∀ fields,
    part ≠ .initial fields := by
  intro part hmem
  simp only [restParts, List.mem_append, List.mem_map] at hmem
  rcases hmem with (⟨bytes, -, rfl⟩ | ⟨fields', -, rfl⟩) | hmem
  · exact Piece.data_ne_initial bytes
  · exact Piece.later_ne_initial fields'
  · split_ifs at hmem
    · obtain rfl := List.mem_singleton.mp hmem
      exact Piece.data_ne_initial []
    · cases hmem

/-- Its status is the one of the header section. -/
theorem responsePieces_status (hstatus : OneStatus fields status) :
    ((responsePieces fields chunks trailers emptyFin).foldl Heard.take {}).status = some status := by
  have hmap := endAtLast_map_fst (.initial fields :: restParts chunks trailers emptyFin)
  rw [responsePieces]
  generalize endAtLast (.initial fields :: restParts chunks trailers emptyFin) = pieces at hmap
  obtain ⟨piece, pieces, rfl, hpiece, hrest⟩ := List.map_eq_cons_iff.mp hmap
  rw [List.foldl_cons, foldl_take_status]
  · rw [Heard.take, hpiece]
    exact announced_of_oneStatus hstatus
  · intro p hmem
    refine restParts_ne_initial chunks trailers emptyFin p.1 ?_
    rw [← hrest]
    exact List.mem_map_of_mem hmem

/-- It is taken in and ends with its last piece. -/
theorem responsePieces_allowed (hstatus : OneStatus fields status)
    (hfits : chunks.flatten.length ≤ limit) :
    Heard.AllowsAll limit {} (responsePieces fields chunks trailers emptyFin) ∧
      InOrder {} (responsePieces fields chunks trailers emptyFin) ∧
      ((responsePieces fields chunks trailers emptyFin).foldl Heard.take {}).ended = true := by
  have hannounced := responsePieces_status chunks trailers emptyFin hstatus
  have hone : ∀ part ∈ .initial fields :: restParts chunks trailers emptyFin, ∀ fields',
      part = .initial fields' → ∃ status, OneStatus fields' status := by
    rintro part hmem fields' rfl
    rcases List.mem_cons.mp hmem with heq | hmem
    · obtain rfl := Piece.initial.inj heq
      exact ⟨status, hstatus⟩
    · exact absurd rfl (restParts_ne_initial chunks trailers emptyFin _ hmem fields')
  have hcontent : (.initial fields :: restParts chunks trailers emptyFin).flatMap Piece.content =
      chunks.flatten := by
    rw [List.flatMap_cons, restParts_content]
    rfl
  rw [responsePieces] at hannounced ⊢
  obtain ⟨front, last, hparts⟩ := List.eq_nil_or_concat' (.initial fields :: restParts chunks trailers
    emptyFin) |>.resolve_left (List.cons_ne_nil _ _)
  rw [hparts] at hone hcontent hannounced ⊢
  rw [endAtLast_concat, List.foldl_append] at hannounced ⊢
  rw [List.flatMap_append, List.flatMap_singleton] at hcontent
  have hlen := congrArg List.length hcontent
  rw [List.length_append] at hlen
  obtain ⟨hallows, horder, hopen⟩ := @allowsAll_open limit {} front rfl
    (fun part hmem => hone part (List.mem_append_left _ hmem))
    (by rw [show ({} : Heard).content.length = 0 from rfl]; omega)
  refine ⟨Heard.allowsAll_append.mpr ⟨hallows, ⟨hone last (by simp), ?_, ?_⟩, trivial⟩,
    inOrder_append.mpr ⟨horder, hopen, trivial⟩, ?_⟩
  · rw [Heard.take, Heard.foldl_take_content, List.flatMap_map, List.length_append, List.nil_append]
    exact (Nat.le_of_eq hlen).trans hfits
  · intro _
    rw [List.foldl_cons, List.foldl_nil] at hannounced
    rw [hannounced]
    simp
  · rw [List.foldl_cons, List.foldl_nil, Heard.take, Bool.or_true]

end

/-- **Such a response is answered with OK**, with its status and its body. -/
theorem request_responsePieces {fields : List Header} {chunks : List Bytes}
    {trailers : Option (List Header)} {emptyFin : Bool} {status : ℤ} (hstatus : OneStatus fields status)
    (hfits : chunks.flatten.length ≤ req.maxResponseBodyBytes.toNat)
    (hdel : Delivers req outside (responsePieces fields chunks trailers emptyFin)) :
    request outside req = { errCode := .ok, httpStatus := status, body := chunks.flatten } := by
  obtain ⟨hallows, horder, hended⟩ := responsePieces_allowed chunks trailers emptyFin hstatus hfits
  rw [request_of_allows hdel hallows horder hended
    (responsePieces_status chunks trailers emptyFin hstatus)]
  have hcontent : (responsePieces fields chunks trailers emptyFin).flatMap (fun p => p.1.content) =
      chunks.flatten := by
    have hmap := endAtLast_map_fst (.initial fields :: restParts chunks trailers emptyFin)
    have heq := congrArg (List.flatMap Piece.content) hmap
    rw [List.flatMap_map, List.flatMap_cons, restParts_content] at heq
    exact heq
  rw [hcontent]

/-- **Success over HTTP/3**: an answer of OK holds a whole response, and a well formed response that ends
in any of the four ways is answered with OK. -/
theorem quic_success (req : Request) (outside : Exchange) (hconnected : outside.early = none) :
    ((request outside req).errCode = .ok →
        Whole req (eventsOf req outside) (request outside req)) ∧
      ∀ fields status chunks trailers emptyFin, OneStatus fields status →
        chunks.flatten.length ≤ req.maxResponseBodyBytes.toNat →
        Delivers req outside (responsePieces fields chunks trailers emptyFin) →
        request outside req = { errCode := .ok, httpStatus := status, body := chunks.flatten } :=
  ⟨whole_of_ok hconnected, fun _ _ _ _ _ => request_responsePieces⟩

/-- A header section and two parts of a body in two polls, then trailers with the end. -/
def trailedExchange : Exchange where
  polls :=
    [[.handshake (.sent []), .readable { header := some (some ([⟨ascii ":status", ascii "200"⟩], false)) }],
      [.readable { body := some [.data (ascii "ab") false, .data (ascii "c") false, .again] },
        .readable { trailer := some (some ([⟨ascii "x", ascii "y"⟩], true)) }, .streamClose 0]]

theorem quic_success_trailed :
    Whole { host := ascii "h" } (eventsOf { host := ascii "h" } trailedExchange)
        { errCode := .ok, httpStatus := 200, body := ascii "abc" } ∧
      request trailedExchange { host := ascii "h" } =
        { errCode := .ok, httpStatus := 200, body := ascii "abc" } := by
  obtain ⟨hwhole, hok⟩ := quic_success { host := ascii "h" } trailedExchange rfl
  have hdel : Delivers { host := ascii "h" } trailedExchange (responsePieces
      [⟨ascii ":status", ascii "200"⟩] [ascii "ab", ascii "c"] (some [⟨ascii "x", ascii "y"⟩]) false) := by
    refine ⟨rfl, ?_, by decide +kernel⟩
    exact ⟨rfl, ⟨by simp, by simp, by simp⟩, ⟨by simp, by simp, by simp⟩,
      ⟨by simp, by simp, by simp⟩, ⟨by decide +kernel, rfl⟩, trivial⟩
  have hstatus : OneStatus [⟨ascii ":status", ascii "200"⟩] 200 :=
    ⟨⟨ascii ":status", ascii "200"⟩, by decide +kernel, 200, by decide, by decide, by decide +kernel, rfl⟩
  have hreq := hok _ 200 _ _ _ hstatus (by decide +kernel) hdel
  have hbody : [ascii "ab", ascii "c"].flatten = ascii "abc" := by decide +kernel
  rw [hbody] at hreq
  rw [hreq] at hwhole
  exact ⟨hwhole rfl, hreq⟩

end Http3

end AsterNet
