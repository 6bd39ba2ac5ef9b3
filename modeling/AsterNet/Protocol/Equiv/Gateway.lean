import AsterNet.Engine.Http1.Equiv.Serialize
import AsterNet.Protocol.Gateway

/-!
# Gateway requests on the wire

`RoundTrips`: HTTP/1.1 does not refuse the request, and a strict reader of its text gets back the method,
the path, the body and the forwarded headers.  `adapt` checks less than that: `adaptsStrictly_iff` is the
exact condition, `WireClean`, and `not_adaptsStrictly_blank` a path with a blank.
-/

namespace AsterNet

namespace DefaultGatewayProtocol

open ByteString RequestReader

/-! ### The condition -/

/-- The engine sends the request, and it is read back from its text. -/
def RoundTrips (req : Request) : Prop :=
  Http1.CleanLine req ∧
    ∃ custom m, Http1.customHeaders req.headers = some custom ∧
      read (Http1.requestText req custom) = some (m, []) ∧
      m.method = req.method ∧ m.target = req.path ∧ m.body = req.body ∧
      m.fields.drop (Http1.engineHeaders req).length = (forwarded req.headers).map Http1.fieldOf

/-- An adapted request round-trips, and a refused one leaves the engine's request as it was. -/
def AdaptsStrictly (input : GatewayRequest) (request : Request) : Prop :=
  ((adapt input request).1 = .ok → RoundTrips (adapt input request).2) ∧
    ((adapt input request).1 ≠ .ok → (adapt input request).2 = request)

/-- The method and the names are tokens, the path has no blank and no control, the host and the forwarded
values have no NUL, and the values no blank at their ends.  `connect_host` is not set by `adapt`. -/
structure WireClean (input : GatewayRequest) (request : Request) : Prop where
  method : isToken input.method = true
  path : input.path.all isTargetByte = true
  host : (0 : UInt8) ∉ input.host
  endpoint : Http1.hasCrlf request.connectHost = false
  names : ∀ h ∈ input.headers, isToken h.name = true
  values : ∀ h ∈ forwarded input.headers, (0 : UInt8) ∉ h.value ∧ trimBlanks h.value = h.value

/-! ### What `adapt` checks -/

/-- What an accepted request is known to be. -/
structure Checked (input : GatewayRequest) : Prop where
  host : Http1.hasCrlf input.host = false
  method : Http1.hasCrlf input.method = false
  path_ne : input.path ≠ []
  path : Http1.hasCrlf input.path = false
  values : ∀ h ∈ input.headers, Http1.hasCrlf h.value = false

theorem hasCrlf_eq_false_iff {s : Bytes} :
    Http1.hasCrlf s = false ↔ (13 : UInt8) ∉ s ∧ (10 : UInt8) ∉ s := by
  simp only [Http1.hasCrlf, List.any_eq_false, Bool.or_eq_true, beq_iff_eq, not_or]
  constructor
  · intro h
    exact ⟨fun hc => (h 13 hc).1 rfl, fun hc => (h 10 hc).2 rfl⟩
  · rintro ⟨hcr, hlf⟩ c hc
    exact ⟨ne_of_mem_of_not_mem hc hcr, ne_of_mem_of_not_mem hc hlf⟩

theorem containsAny_eq_false_iff {bytes s : Bytes} :
    containsAny bytes s = false ↔ ∀ c ∈ bytes, c ∉ s := by
  simp only [containsAny, List.any_eq_false, List.contains_iff_mem]
  exact ⟨fun h c hc hs => h c hs hc, fun h c hs hc => h c hc hs⟩

theorem checked_of_accepts {input : GatewayRequest} (h : accepts input = true) : Checked input := by
  simp only [accepts, Bool.and_eq_true, Bool.not_eq_true', Bool.or_eq_false_iff, List.all_eq_true,
    acceptsHeader] at h
  obtain ⟨⟨⟨⟨⟨⟨⟨-, hhost⟩, -⟩, -⟩, hmethod⟩, hpath, -⟩, hcr, hlf⟩, hheaders⟩ := h
  have hcrlf : ∀ {bytes s : Bytes}, containsAny (crlf ++ bytes) s = false → Http1.hasCrlf s = false := by
    intro bytes s hs
    rw [containsAny_eq_false_iff] at hs
    exact hasCrlf_eq_false_iff.mpr ⟨hs 13 (by simp [crlf]), hs 10 (by simp [crlf])⟩
  constructor
  · exact @hcrlf [] _ hhost
  · exact hcrlf hmethod
  · rintro hnil
    rw [hnil] at hpath
    cases hpath
  · rw [hasCrlf_eq_false_iff]
    simpa using And.intro hcr hlf
  · intro header hmem
    exact @hcrlf [] _ (hheaders header hmem).1.2

/-! ### The custom headers -/

/-- A header is refused unless its name is a token and its value has no line end. -/
theorem customHeader_eq_some_iff {h : Header} {forward : Option Header} :
    Http1.customHeader h = some forward ↔ isToken h.name = true ∧ Http1.hasCrlf h.value = false ∧
      forward = if Http1.ownedHeader (lower h.name) then none else some h := by
  have htoken : isToken h.name = true ↔ h.name ≠ [] ∧ h.name.all Http1.isTokenChar = true := by
    rw [isToken_iff, List.all_eq_true]
    rfl
  have hcrlf : isToken h.name = true → Http1.hasCrlf h.name = false := by
    intro hname
    have hbytes := (isToken_iff.mp hname).2
    exact hasCrlf_eq_false_iff.mpr ⟨fun hc => absurd (hbytes 13 hc) (by decide),
      fun hc => absurd (hbytes 10 hc) (by decide)⟩
  unfold Http1.customHeader
  constructor
  · intro heq
    split_ifs at heq with hline hempty hall howned
    · rw [Bool.or_eq_true, not_or, Bool.not_eq_true, Bool.not_eq_true] at hline
      rw [Bool.not_eq_false] at hall
      exact ⟨htoken.mpr ⟨hempty, hall⟩, hline.2, by rw [if_pos howned, Option.some.inj heq]⟩
    · rw [Bool.or_eq_true, not_or, Bool.not_eq_true, Bool.not_eq_true] at hline
      rw [Bool.not_eq_false] at hall
      exact ⟨htoken.mpr ⟨hempty, hall⟩, hline.2, by rw [if_neg howned, Option.some.inj heq]⟩
  · rintro ⟨hname, hvalue, rfl⟩
    obtain ⟨hne, hall⟩ := htoken.mp hname
    rw [hcrlf hname, hvalue, hall, if_neg (by simp), if_neg hne, if_neg (by simp)]
    split_ifs <;> rfl

/-- **The headers are forwarded** when none is refused. -/
theorem customHeaders_eq_some_iff {headers custom : List Header} :
    Http1.customHeaders headers = some custom ↔
      (∀ h ∈ headers, isToken h.name = true ∧ Http1.hasCrlf h.value = false) ∧
        custom = forwarded headers := by
  have hforwarded : (∀ h ∈ headers, isToken h.name = true ∧ Http1.hasCrlf h.value = false) →
      Http1.customHeaders headers = some (forwarded headers) := by
    intro hall
    rw [Http1.customHeaders, mapM_eq_some_map fun h hmem =>
      customHeader_eq_some_iff.mpr ⟨(hall h hmem).1, (hall h hmem).2, rfl⟩,
      Option.map_some, filterMap_forwarded]
  constructor
  · intro h
    have hall : ∀ h ∈ headers, isToken h.name = true ∧ Http1.hasCrlf h.value = false := by
      unfold Http1.customHeaders at h
      obtain ⟨results, hresults, -⟩ := Option.map_eq_some_iff.mp h
      clear h hforwarded
      induction headers generalizing results with
      | nil => simp
      | cons header headers ih =>
        simp only [List.mapM_cons, Option.bind_eq_bind, Option.bind_eq_some_iff] at hresults
        obtain ⟨result, hresult, results, hresults, -⟩ := hresults
        obtain ⟨hname, hvalue, -⟩ := customHeader_eq_some_iff.mp hresult
        intro h hmem
        rcases List.mem_cons.mp hmem with rfl | hmem
        · exact ⟨hname, hvalue⟩
        · exact ih results hresults h hmem
    rw [hforwarded hall] at h
    exact ⟨hall, (Option.some.inj h).symm⟩
  · rintro ⟨hall, rfl⟩
    exact hforwarded hall

/-! ### Round trips -/

/-- A byte that is no blank stays when the blanks at the ends go. -/
theorem mem_trimBlanks {c : UInt8} {s : Bytes} (hc : isBlank c = false) (hs : c ∈ s) : c ∈ trimBlanks s := by
  rw [← List.singleton_infix_iff] at hs ⊢
  exact (infix_trimBlanks_iff (by simp) (by simpa using hc)).mpr hs

section

variable {input : GatewayRequest} {request : Request}

/-- The request `adapt` leaves. -/
theorem adapt_of_accepts (h : accepts input = true) : (adapt input request).1 = .ok ∧
    (adapt input request).2.host = input.host ∧ (adapt input request).2.connectHost = request.connectHost ∧
    (adapt input request).2.method = input.method ∧ (adapt input request).2.path = input.path ∧
    (adapt input request).2.headers = input.headers := by
  rw [adapt, if_pos h]
  exact ⟨rfl, rfl, rfl, rfl, rfl, rfl⟩

/-- A request that is clean for the wire is a well-formed message. -/
theorem wellFormed_of_wireClean (h : accepts input = true) (hclean : WireClean input request) :
    (Http1.message (adapt input request).2 (forwarded input.headers)).WellFormed := by
  obtain ⟨-, hhost, -, hmethod, hpath, hheaders⟩ := @adapt_of_accepts input request h
  have hchecked := checked_of_accepts h
  have hvalue : ∀ {s : Bytes}, Http1.hasCrlf s = false → (0 : UInt8) ∉ s → ∀ c ∈ s, isValueByte c = true := by
    intro s hs hnul c hc
    exact List.all_eq_true.mp (Http1.all_isValueByte hs hnul) c hc
  constructor
  · show isToken (adapt input request).2.method = true
    rw [hmethod]
    exact hclean.method
  · show (adapt input request).2.path ≠ []
    rw [hpath]
    exact hchecked.path_ne
  · show (adapt input request).2.path.all isTargetByte = true
    rw [hpath]
    exact hclean.path
  · intro f hf
    obtain ⟨header, hmem, rfl⟩ := List.mem_map.mp hf
    rcases List.mem_append.mp hmem with hmem | hmem
    · exact Http1.engineHeaders_name hmem
    · exact hclean.names header (List.mem_of_mem_filter hmem)
  · intro f hf
    obtain ⟨header, hmem, rfl⟩ := List.mem_map.mp hf
    rcases List.mem_append.mp hmem with hmem | hmem
    · exact Http1.engineHeaders_value (hhost ▸ hvalue hchecked.host hclean.host) hmem
    · exact Http1.all_isValueByte (hchecked.values header (List.mem_of_mem_filter hmem))
        (hclean.values header hmem).1
  · show (((Http1.engineHeaders _ ++ forwarded input.headers).map Http1.fieldOf).filter _).length = 1
    rw [Http1.filter_isNamed_append (by decide), Http1.filter_host]
    rfl
  · exact Http1.bodyLength_message _ input.headers

/-- A line without CR and LF is one line to the reader. -/
theorem all_isLineByte_of_hasCrlf {s : Bytes} (h : Http1.hasCrlf s = false) : ∀ c ∈ s, isLineByte c = true := by
  obtain ⟨hcr, hlf⟩ := hasCrlf_eq_false_iff.mp h
  intro c hc
  simp [isLineByte, ne_of_mem_of_not_mem hc hcr, ne_of_mem_of_not_mem hc hlf]

/-- The lines of an accepted request are lines to the reader. -/
theorem requestLine_all (h : accepts input = true) (custom : List Header) :
    (Http1.message (adapt input request).2 custom).requestLine.all isLineByte = true := by
  obtain ⟨-, -, -, hmethod, hpath, -⟩ := @adapt_of_accepts input request h
  have hchecked := checked_of_accepts h
  rw [List.all_eq_true]
  intro c hc
  unfold RequestReader.Message.requestLine Http1.message at hc
  rw [hmethod, hpath] at hc
  simp only [List.mem_append] at hc
  rcases hc with ((hc | hc) | hc) | hc
  · exact all_isLineByte_of_hasCrlf hchecked.method c hc
  · exact (by decide +kernel : ∀ c ∈ ascii " ", isLineByte c = true) c hc
  · exact all_isLineByte_of_hasCrlf hchecked.path c hc
  · exact (by decide +kernel : ∀ c ∈ ascii " HTTP/1.1", isLineByte c = true) c hc

theorem fields_of_accepts (h : accepts input = true) (hnames : ∀ h ∈ input.headers, isToken h.name = true)
    {f : RequestReader.Field}
    (hf : f ∈ (Http1.message (adapt input request).2 (forwarded input.headers)).fields) :
    isToken f.name = true ∧ f.line.all isLineByte = true := by
  obtain ⟨-, hhost, -⟩ := @adapt_of_accepts input request h
  have hchecked := checked_of_accepts h
  obtain ⟨header, hmem, rfl⟩ := List.mem_map.mp hf
  -- the engine's own names are tokens; the others are by assumption
  have hname : isToken header.name = true := by
    rcases List.mem_append.mp hmem with hmem | hmem
    · exact Http1.engineHeaders_name hmem
    · exact hnames header (List.mem_of_mem_filter hmem)
  -- and no value has a line break in it
  have hvalue : ∀ c ∈ header.value, isLineByte c = true := by
    rcases List.mem_append.mp hmem with hmem | hmem
    · rcases Http1.mem_engineHeaders hmem with rfl | rfl | rfl | rfl
      · intro c hc
        rcases Http1.mem_hostHeader hc with hc | rfl | hdigit
        · rw [hhost] at hc
          exact all_isLineByte_of_hasCrlf hchecked.host c hc
        · decide
        · exact isLineByte_of_isValueByte c (Http1.isValueByte_of_isDigit c hdigit)
      · exact (by decide +kernel : ∀ c ∈ ascii "asternet/0.1", isLineByte c = true)
      · exact (by decide +kernel : ∀ c ∈ ascii "keep-alive", isLineByte c = true)
      · exact fun c hc => isLineByte_of_isValueByte c (Http1.isValueByte_of_isDigit c
          (List.all_eq_true.mp (Http1.decimal_all_isDigit _) c hc))
    · exact all_isLineByte_of_hasCrlf (hchecked.values header (List.mem_of_mem_filter hmem))
  refine ⟨hname, ?_⟩
  rw [List.all_eq_true]
  intro c hc
  unfold RequestReader.Field.line Http1.fieldOf at hc
  simp only [List.mem_append] at hc
  rcases hc with (hc | hc) | hc
  · exact (isTokenByte_spec c ((isToken_iff.mp hname).2 c hc)).2.2
  · exact (by decide +kernel : ∀ c ∈ ascii ": ", isLineByte c = true) c hc
  · exact hvalue c hc

/-- The fields behind the engine's own, without the blanks around their values. -/
theorem drop_trimmed_fields (req : Request) (custom : List Header) :
    (Http1.message req custom).trimmed.fields.drop (Http1.engineHeaders req).length =
      custom.map fun h => (Http1.fieldOf h).trimmed := by
  show (((Http1.engineHeaders req ++ custom).map Http1.fieldOf).map RequestReader.Field.trimmed).drop _ = _
  rw [List.map_map, List.map_append, List.drop_left' (List.length_map _)]
  rfl

/-- **The adapted request round-trips exactly when it is clean for the wire.** -/
theorem roundTrips_iff (h : accepts input = true) :
    RoundTrips (adapt input request).2 ↔ WireClean input request := by
  obtain ⟨-, hhost, hendpoint, hmethod, hpath, hheaders⟩ := @adapt_of_accepts input request h
  have hchecked := checked_of_accepts h
  constructor
  -- what was read back is the message, so its parts are clean one by one
  · rintro ⟨hline, custom, m, hcustom, hread, hm, ht, -, hfields⟩
    obtain ⟨hnames, rfl⟩ := customHeaders_eq_some_iff.mp hcustom
    rw [Http1.requestText_eq] at hread
    rw [hheaders] at hnames hread hfields
    have hendpoint' : Http1.hasCrlf (adapt input request).2.connectHost = false := by
      simp only [Http1.CleanLine, Bool.or_eq_false_iff] at hline
      exact hline.1.1.2
    obtain ⟨hmethod', htarget', hall, hread_fields, hvalues⟩ := of_read_text
      (requestLine_all h _) (fun f hf => (fields_of_accepts h (fun header hmem => (hnames header hmem).1) hf).2)
      (fun f hf => (fields_of_accepts h (fun header hmem => (hnames header hmem).1) hf).1) hread
    have hforwarded : ∀ header ∈ forwarded input.headers,
        (Http1.fieldOf header).trimmed = Http1.fieldOf header := by
      rw [hread_fields, drop_trimmed_fields] at hfields
      exact List.map_inj_left.mp hfields
    have hvalue : ∀ header ∈ forwarded input.headers, trimBlanks header.value = header.value :=
      fun header hmem => congrArg RequestReader.Field.value (hforwarded header hmem)
    constructor
    · rw [← hmethod, ← hm]
      exact hmethod'
    · rw [← hpath, ← ht]
      exact hall
    · -- the line of the host is read, so there is no NUL in it
      intro hnul
      have hhostValue := hvalues (Http1.fieldOf ⟨ascii "Host", Http1.hostHeader (adapt input request).2⟩)
        (List.mem_map_of_mem (List.mem_append_left _ (by simp [Http1.engineHeaders])))
      have hmem : (0 : UInt8) ∈ Http1.hostHeader (adapt input request).2 := by
        rw [← hhost] at hnul
        unfold Http1.hostHeader
        split_ifs
        · exact List.mem_append_left _ (List.mem_append_left _ hnul)
        · exact hnul
      exact absurd (List.all_eq_true.mp hhostValue 0 (mem_trimBlanks (by decide) hmem)) (by decide)
    · rw [← hendpoint]
      exact hendpoint'
    · exact fun header hmem => (hnames header hmem).1
    · intro header hmem
      refine ⟨fun hnul => ?_, hvalue header hmem⟩
      have hall := hvalues (Http1.fieldOf header) (List.mem_map_of_mem (List.mem_append_right _ hmem))
      exact absurd (List.all_eq_true.mp hall 0 (mem_trimBlanks (by decide) hnul)) (by decide)
  -- a clean request is well formed, and the reader reads well-formed requests back
  · intro hclean
    have hforwarded : Http1.customHeaders (adapt input request).2.headers = some (forwarded input.headers) := by
      rw [hheaders]
      exact customHeaders_eq_some_iff.mpr
        ⟨fun header hmem => ⟨hclean.names header hmem, hchecked.values header hmem⟩, rfl⟩
    have hread := read_text (wellFormed_of_wireClean h hclean) []
    rw [List.append_nil, ← Http1.requestText_eq] at hread
    refine ⟨?_, _, _, hforwarded, hread, rfl, rfl, rfl, ?_⟩
    · rw [Http1.CleanLine, hhost, hendpoint, hmethod, hpath, hchecked.host, hclean.endpoint,
        hchecked.method, hchecked.path]
      rfl
    · rw [drop_trimmed_fields, hheaders]
      refine List.map_congr_left fun header hmem => ?_
      rw [RequestReader.Field.trimmed, Http1.fieldOf, (hclean.values header hmem).2]

/-- **When `adapt` is as strict as the wire**: exactly when it accepts only requests that are clean for
the wire. -/
theorem adaptsStrictly_iff (input : GatewayRequest) (request : Request) :
    AdaptsStrictly input request ↔ (accepts input = true → WireClean input request) := by
  cases h : accepts input with
  | true =>
    have hok := (@adapt_of_accepts input request h).1
    rw [AdaptsStrictly, hok, ← roundTrips_iff h]
    constructor
    · rintro ⟨hround, -⟩ -
      exact hround rfl
    · intro hround
      exact ⟨fun _ => hround rfl, fun hne => absurd rfl hne⟩
  | false =>
    have hrefused : adapt input request = (.errInvalidArgument, request) := by
      rw [adapt, h, if_neg (by simp)]
    rw [AdaptsStrictly, hrefused]
    refine iff_of_true ⟨?_, fun _ => rfl⟩ (fun hfalse => by cases hfalse)
    rintro ⟨⟩

end

/-- A path with a blank. -/
def blankPath : GatewayRequest := { host := ascii "h", path := ascii "/a b" }

/-- The request line has four parts, and no strict reader takes it. -/
theorem not_adaptsStrictly_blank : ¬ AdaptsStrictly blankPath { host := [] } := by
  have haccepts : accepts blankPath = true := by decide
  rintro ⟨hround, -⟩
  have hclean := (roundTrips_iff haccepts).mp (hround (adapt_of_accepts haccepts).1)
  exact absurd hclean.path (by decide)

end DefaultGatewayProtocol

end AsterNet
