import AsterNet.Engine.Http3.Message

/-!
# What the callbacks accept

`Sound` says that a context has taken in what was heard.  Each callback either takes in its pieces or
flags a failure, and `Heard.Allows` says which: an initial section has one well formed `:status`, the
body stays within the limit, and the end of the stream comes when a status is known.  A failure stays
flagged (`failed_handle`).

* `sound_readNotify`: a read notification, exactly.
* `parseHttpStatus_eq_some_iff`: a status is three digits of a number from 100 to 599.
-/

namespace AsterNet

namespace Http3

open ByteString

/-- The context has taken in what was heard, and nothing failed. -/
structure Reflects (limit : ℕ) (ctx : RequestContext) (heard : Heard) : Prop where
  not_failed : ctx.failed = false
  gotStatus : ctx.gotStatus = heard.status.isSome
  httpStatus : ∀ status, heard.status = some status → ctx.httpStatus = status
  content : ctx.responseBody = heard.content
  limit_eq : ctx.maxResponseBodyBytes = limit
  responseFin : ctx.responseFin = heard.ended
  finished : ctx.finished = heard.ended
  finished_gotStatus : ctx.finished = true → ctx.gotStatus = true

/-- And what was heard is within the limit. -/
structure Sound (limit : ℕ) (ctx : RequestContext) (heard : Heard) : Prop extends
    Reflects limit ctx heard where
  fits : heard.content.length ≤ limit

/-- The fields named `:status`. -/
def statusFields (fields : List Header) : List Header :=
  fields.filter fun field => field.name = ascii ":status"

/-- The three digits of a number from 100 to 599. -/
def IsStatus (value : Bytes) (status : ℤ) : Prop :=
  ∃ n : ℕ, 100 ≤ n ∧ n ≤ 599 ∧ value = decimal n ∧ status = n

theorem isDigit_iff : ∀ b : UInt8, isDigit b = true ↔ (digitVal 10 b).isSome := by
  decide +kernel

/-- **`parse_http_status` takes these and no others.** -/
theorem parseHttpStatus_eq_some_iff {value : Bytes} {status : ℤ} :
    parseHttpStatus value = some status ↔ IsStatus value status := by
  have hall : value.all isDigit = true ↔ AllDigits 10 value := by
    rw [List.all_eq_true]
    exact forall₂_congr fun b _ => isDigit_iff b
  unfold parseHttpStatus
  constructor
  · intro h
    dsimp only at h
    split_ifs at h with hform hrange
    obtain ⟨hlength, hdigits⟩ := not_or.mp hform
    rw [not_not] at hlength
    rw [Bool.not_eq_false, hall] at hdigits
    refine ⟨digitsValue 10 value, by omega, by omega, ?_, (Option.some.inj h).symm⟩
    refine (decimal_digitsValue (List.ne_nil_of_length_pos (by omega)) hdigits fun hzero => ?_).symm
    -- a zero in front leaves two digits, whose value is below 100
    match value, hlength with
    | [x, y, z], _ =>
      obtain rfl := Option.some.inj hzero
      have hbelow : ∀ b : UInt8, (digitVal 10 b).getD 0 < 10 := by decide +kernel
      have hy := hbelow y
      have hz := hbelow z
      have hfirst : (digitVal 10 48).getD 0 = 0 := by decide
      simp only [digitsValue, List.map_cons, List.map_nil, List.reverse_cons, List.reverse_nil, List.nil_append,
        List.cons_append, Nat.ofDigits_cons, Nat.ofDigits_nil, hfirst] at hrange
      omega
  · rintro ⟨n, hlow, hhigh, rfl, rfl⟩
    have hlog : Nat.log 10 n = 2 := Nat.log_eq_of_pow_le_of_lt_pow (by omega) (by omega)
    rw [if_neg, digitsValue_decimal]
    · dsimp only
      rw [if_neg (by omega)]
    · rw [not_or, not_not, Bool.not_eq_false, hall, length_decimal (by omega), hlog]
      exact ⟨rfl, decimal_allDigits n⟩

/-- A header section with exactly one `:status`, which is well formed. -/
def OneStatus (fields : List Header) (status : ℤ) : Prop :=
  ∃ field, statusFields fields = [field] ∧ IsStatus field.value status

/-- A piece that is taken in: an initial section has one well formed `:status`, the body stays within the
limit, and the end comes when a status is known. -/
structure Heard.Allows (limit : ℕ) (heard : Heard) (piece : Piece × Bool) : Prop where
  one_status : ∀ fields, piece.1 = .initial fields → ∃ status, OneStatus fields status
  fits : (heard.take piece).content.length ≤ limit
  end_status : piece.2 = true → (heard.take piece).status ≠ none

theorem Piece.data_ne_initial (bytes : Bytes) (fields : List Header) :
    Piece.data bytes ≠ .initial fields := by simp

theorem Piece.later_ne_initial (fields fields' : List Header) :
    Piece.later fields ≠ .initial fields' := by simp

/-- Other pieces announce no status. -/
theorem one_status_of_ne {piece : Piece} (h : ∀ fields, piece ≠ .initial fields) (fields : List Header)
    (heq : piece = .initial fields) : ∃ status, OneStatus fields status :=
  absurd heq (h fields)

/-- The pieces are taken in one after the other. -/
def Heard.AllowsAll (limit : ℕ) : Heard → List (Piece × Bool) → Prop
  | _, [] => True
  | heard, piece :: pieces => heard.Allows limit piece ∧ AllowsAll limit (heard.take piece) pieces

theorem Heard.allowsAll_append {limit : ℕ} {heard : Heard} {pieces pieces' : List (Piece × Bool)} :
    AllowsAll limit heard (pieces ++ pieces') ↔
      AllowsAll limit heard pieces ∧ AllowsAll limit (pieces.foldl take heard) pieces' := by
  induction pieces generalizing heard with
  | nil => simp [AllowsAll]
  | cons piece pieces ih => simp only [List.cons_append, AllowsAll, ih, List.foldl_cons, and_assoc]

/-- The loop over the body comes to a failing read. -/
def bodyFails : List BodyRead → Bool
  | .failed :: _ => true
  | .data bytes fin :: reads => if fin ∨ bytes = [] then false else bodyFails reads
  | _ => false

/-- Nothing a notification hands out is refused. -/
structure ReadNotify.Accepted (notify : ReadNotify) (limit : ℕ) (heard : Heard) : Prop where
  header : notify.header ≠ some none
  body : notify.body.elim false bodyFails = false
  trailer : notify.trailer ≠ some none
  pieces : heard.AllowsAll limit notify.pieces

variable {limit : ℕ} {ctx : RequestContext} {heard : Heard}

/-! ### The status -/

theorem statusFields_cons_of_ne {field : Header} {fields : List Header}
    (h : field.name ≠ ascii ":status") : statusFields (field :: fields) = statusFields fields :=
  List.filter_cons_of_neg (by simpa using h)

theorem statusFields_cons_of_eq {field : Header} {fields : List Header}
    (h : field.name = ascii ":status") :
    statusFields (field :: fields) = field :: statusFields fields :=
  List.filter_cons_of_pos (by simpa using h)

/-- `announced` is the status of the section. -/
theorem announced_of_oneStatus {fields : List Header} {status : ℤ} (h : OneStatus fields status) :
    announced fields = some status := by
  obtain ⟨field, hfields, hvalue⟩ := h
  rw [announced, ← List.head?_filter]
  unfold statusFields at hfields
  rw [hfields, List.head?_cons, Option.bind_some, parseHttpStatus_eq_some_iff.2 hvalue]

/-- A status was found already: another one is refused. -/
theorem scanStatus_true (ctx : RequestContext) (fields : List Header) :
    scanStatus ctx true fields =
      if statusFields fields = [] then (some true, ctx) else (none, { ctx with failed := true }) := by
  induction fields with
  | nil => rfl
  | cons field fields ih =>
    unfold scanStatus
    by_cases hname : field.name = ascii ":status"
    · rw [if_neg (not_not.mpr hname), statusFields_cons_of_eq hname, if_neg (List.cons_ne_nil _ _)]
    · rw [if_pos hname, statusFields_cons_of_ne hname, ih]

theorem scanStatus_of_oneStatus {fields : List Header} {status : ℤ} (h : OneStatus fields status) :
    scanStatus ctx false fields = (some true, { ctx with httpStatus := status }) := by
  obtain ⟨field, hfields, hvalue⟩ := h
  have hparse := parseHttpStatus_eq_some_iff.2 hvalue
  induction fields with
  | nil => cases hfields
  | cons first fields ih =>
    unfold scanStatus
    by_cases hname : first.name = ascii ":status"
    · rw [statusFields_cons_of_eq hname, List.cons.injEq] at hfields
      obtain ⟨rfl, hnil⟩ := hfields
      rw [if_neg (not_not.mpr hname), hparse]
      dsimp only
      rw [scanStatus_true, if_pos hnil]
    · rw [statusFields_cons_of_ne hname] at hfields
      rw [if_pos hname, ih hfields]

/-- Every other section is refused. -/
theorem failed_consumeHeaders_initial {fields : List Header} {fin : Bool}
    (h : ¬ ∃ status, OneStatus fields status) :
    (consumeHeaders ctx true (some (fields, fin))).2.failed = true := by
  have hscan : (scanStatus ctx false fields).1 = some false ∨
      (scanStatus ctx false fields).1 = none ∧ (scanStatus ctx false fields).2.failed = true := by
    induction fields with
    | nil => exact .inl rfl
    | cons field fields ih =>
      unfold scanStatus
      by_cases hname : field.name = ascii ":status"
      · rw [if_neg (not_not.mpr hname)]
        cases hparse : parseHttpStatus field.value with
        | none => exact .inr ⟨rfl, rfl⟩
        | some status =>
          -- so a second status follows
          have hmore : statusFields fields ≠ [] := by
            intro hnil
            refine h ⟨status, field, ?_, parseHttpStatus_eq_some_iff.1 hparse⟩
            rw [statusFields_cons_of_eq hname, hnil]
          dsimp only
          rw [scanStatus_true, if_neg hmore]
          exact .inr ⟨rfl, rfl⟩
      · rw [if_pos hname]
        refine ih fun ⟨status, field', hfields, hvalue⟩ => h ⟨status, field', ?_, hvalue⟩
        rw [statusFields_cons_of_ne hname, hfields]
  unfold consumeHeaders
  dsimp only
  rw [if_pos rfl]
  rcases hscan with hscan | ⟨hscan, hfailed⟩
  · rw [hscan]
  · rw [hscan]
    exact hfailed

/-- A response with a status and an end is complete. -/
theorem completeResponseIfReady_of (ctx : RequestContext) (hfin : ctx.responseFin = true)
    (hgot : ctx.gotStatus = true) (hfailed : ctx.failed = false) :
    completeResponseIfReady ctx = { ctx with finished := true } := by
  unfold completeResponseIfReady
  rw [if_neg (by simp [hfin]), if_neg (by simp [hgot]), if_neg (by simp [hfailed])]

/-! ### Failures stay flagged -/

/-- A failure is flagged, and the response is complete or not as it was before. -/
structure Stuck (finished : Bool) (ctx : RequestContext) : Prop where
  failed : ctx.failed = true
  finished_eq : ctx.finished = finished

section

variable {b : Bool}

theorem Stuck.completeResponseIfReady (h : Stuck b ctx) : Stuck b (completeResponseIfReady ctx) := by
  unfold Http3.completeResponseIfReady
  split_ifs with hfin hgot hfailed
  · exact h
  · exact ⟨rfl, h.finished_eq⟩
  · exact h
  · exact absurd h.failed hfailed

theorem Stuck.finish (h : Stuck b ctx) : Stuck b (finish ctx) :=
  Stuck.completeResponseIfReady ⟨h.failed, h.finished_eq⟩

theorem Stuck.scanStatus {found : Bool} {fields : List Header} (h : Stuck b ctx) :
    Stuck b (scanStatus ctx found fields).2 := by
  induction fields generalizing ctx found with
  | nil => exact h
  | cons field fields ih =>
    unfold Http3.scanStatus
    split_ifs
    · exact ih h
    · cases found with
      | true => exact ⟨rfl, h.finished_eq⟩
      | false =>
        cases parseHttpStatus field.value with
        | none => exact ⟨rfl, h.finished_eq⟩
        | some status => exact ih ⟨h.failed, h.finished_eq⟩

theorem Stuck.consumeHeaders {isInitial : Bool} {received : Received} (h : Stuck b ctx) :
    Stuck b (consumeHeaders ctx isInitial received).2 := by
  cases received with
  | none => exact ⟨rfl, h.finished_eq⟩
  | some received =>
    obtain ⟨fields, fin⟩ := received
    unfold Http3.consumeHeaders
    cases isInitial with
    | false =>
      cases fin with
      | false => exact h
      | true => exact h.finish
    | true =>
      dsimp only
      rw [if_pos rfl]
      have hscan : Stuck b (Http3.scanStatus ctx false fields).2 := h.scanStatus
      generalize Http3.scanStatus ctx false fields = scan at hscan
      obtain ⟨found, ctx'⟩ := scan
      have hgot : Stuck b { ctx' with gotStatus := true } := ⟨hscan.failed, hscan.finished_eq⟩
      match found, fin with
      | none, _ => exact hscan
      | some false, _ => exact ⟨rfl, hscan.finished_eq⟩
      | some true, false => exact hgot
      | some true, true => exact hgot.finish

theorem Stuck.recvBody {reads : List BodyRead} (h : Stuck b ctx) :
    Stuck b (recvBody ctx reads).2.2 := by
  induction reads generalizing ctx with
  | nil => exact h
  | cons read reads ih =>
    cases read with
    | again => exact h
    | failed => exact ⟨rfl, h.finished_eq⟩
    | data bytes fin =>
      unfold Http3.recvBody
      split_ifs
      · exact ⟨rfl, h.finished_eq⟩
      · exact ⟨h.failed, h.finished_eq⟩
      · exact ⟨h.failed, h.finished_eq⟩
      · exact ih ⟨h.failed, h.finished_eq⟩

/-- After a failure the body is read, and the end of it is not looked at. -/
theorem Stuck.readBody {reads : List BodyRead} (h : Stuck b ctx) :
    (readBody ctx reads).1 = false ∧ Stuck b (readBody ctx reads).2 := by
  have hrecv : Stuck b (Http3.recvBody ctx reads).2.2 := h.recvBody
  unfold Http3.readBody
  generalize Http3.recvBody ctx reads = received at hrecv
  obtain ⟨ok, fin, ctx'⟩ := received
  cases ok with
  | false => exact ⟨rfl, hrecv⟩
  | true =>
    dsimp only at hrecv ⊢
    rw [if_pos hrecv.failed]
    exact ⟨rfl, hrecv⟩

/-! ### The parts of a notification -/

/-- A part is read unless an earlier one was refused. -/
def thenRead (read : Bool × RequestContext) (next : RequestContext → Bool × RequestContext) :
    Bool × RequestContext :=
  if read.1 = false then read else next read.2

/-- A part that is read when `p` holds, and flagged as a failure otherwise. -/
structure Reads (limit : ℕ) (p : Prop) (read : Bool × RequestContext) (heard : Heard) : Prop where
  taken : p → read.1 = true ∧ Sound limit read.2 heard
  refused : ¬ p → read.2.failed = true

theorem Reads.thenRead {p q : Prop} {read : Bool × RequestContext}
    {next : RequestContext → Bool × RequestContext} {heard₁ heard₂ : Heard} (h : Reads limit p read heard₁)
    (hnext : ∀ ctx', Sound limit ctx' heard₁ → Reads limit q (next ctx') heard₂)
    (hstuck : ∀ ctx', ctx'.failed = true → (next ctx').2.failed = true) :
    Reads limit (p ∧ q) (thenRead read next) heard₂ := by
  unfold Http3.thenRead
  constructor
  · rintro ⟨hp, hq⟩
    obtain ⟨hok, hsound⟩ := h.taken hp
    rw [if_neg (by simp [hok])]
    exact (hnext _ hsound).taken hq
  · intro hnot
    by_cases hp : p
    · obtain ⟨hok, hsound⟩ := h.taken hp
      rw [if_neg (by simp [hok])]
      exact (hnext _ hsound).refused fun hq => hnot ⟨hp, hq⟩
    · have hfailed := h.refused hp
      split_ifs
      · exact hfailed
      · exact hstuck _ hfailed

theorem readNotify_eq (ctx : RequestContext) (notify : ReadNotify) :
    readNotify ctx notify = (thenRead (thenRead (thenRead
      (notify.header.elim (true, ctx) (consumeHeaders ctx true))
      fun ctx => notify.body.elim (true, ctx) (readBody ctx))
      fun ctx => notify.trailer.elim (true, ctx) (consumeHeaders ctx false))
      fun ctx => (true, if notify.emptyFin then finish ctx else ctx)).2 := by
  unfold readNotify thenRead
  dsimp only
  split_ifs <;> simp_all

/-- The end of the stream: it is taken when a status is known. -/
theorem Sound.finish (h : Sound limit ctx heard) (fin : Bool) :
    Reads limit (fin = true → heard.status ≠ none) (true, if fin then finish ctx else ctx)
      { heard with ended := heard.ended || fin } := by
  cases fin with
  | false =>
    rw [Bool.or_false]
    exact ⟨fun _ => ⟨rfl, h⟩, fun hnot => absurd (fun hfin => by cases hfin) hnot⟩
  | true =>
    rw [Bool.or_true, if_pos rfl]
    unfold Http3.finish
    constructor
    · intro hstatus
      have hgot : ctx.gotStatus = true := by
        rw [h.gotStatus, Option.isSome_iff_ne_none]
        exact hstatus rfl
      rw [completeResponseIfReady_of { ctx with responseFin := true } rfl hgot h.not_failed]
      exact ⟨rfl, ⟨h.not_failed, h.gotStatus, h.httpStatus, h.content, h.limit_eq, rfl, rfl,
        fun _ => hgot⟩, h.fits⟩
    · intro hnot
      have hgot : ctx.gotStatus = false := by
        rw [h.gotStatus, Option.isSome_eq_false_iff, Option.isNone_iff_eq_none]
        by_contra hne
        exact hnot fun _ => hne
      rw [completeResponseIfReady, if_neg (by simp), if_pos hgot]

theorem Sound.readInitial (h : Sound limit ctx heard) (received : Option Received) :
    Reads limit (received ≠ some none ∧ heard.AllowsAll limit (sectionPieces .initial received))
      (received.elim (true, ctx) (consumeHeaders ctx true))
      ((sectionPieces .initial received).foldl Heard.take heard) := by
  match received with
  | none => exact ⟨fun _ => ⟨rfl, h⟩, fun hnot => absurd ⟨(Option.some_ne_none none).symm, trivial⟩ hnot⟩
  | some none => exact ⟨fun hp => absurd rfl hp.1, fun _ => rfl⟩
  | some (some (fields, fin)) =>
    rw [Option.elim_some]
    by_cases hone : ∃ status, OneStatus fields status
    · obtain ⟨status, hstatus⟩ := hone
      have hconsume : consumeHeaders ctx true (some (fields, fin)) =
          (true, if fin then Http3.finish { ctx with httpStatus := status, gotStatus := true }
            else { ctx with httpStatus := status, gotStatus := true }) := by
        simp only [consumeHeaders, if_pos, scanStatus_of_oneStatus hstatus]
      have hsound : Sound limit { ctx with httpStatus := status, gotStatus := true }
          { heard with status := some status } :=
        ⟨⟨h.not_failed, rfl, fun s hs => Option.some.inj hs, h.content, h.limit_eq, h.responseFin,
          h.finished, fun _ => rfl⟩, h.fits⟩
      have htake : heard.take (.initial fields, fin) =
          { heard with status := some status, ended := heard.ended || fin } := by
        simp [Heard.take, Piece.content, announced_of_oneStatus hstatus]
      have hfin := hsound.finish fin
      have hstatus' : fin = true → some status ≠ none := fun _ => by simp
      rw [hconsume, sectionPieces, List.foldl_cons, htake]
      refine ⟨fun _ => hfin.taken hstatus', fun hnot => absurd ⟨by simp, ⟨?_, ?_, ?_⟩, trivial⟩ hnot⟩
      · rintro _ ⟨⟩
        exact ⟨status, hstatus⟩
      · rw [htake]
        exact h.fits
      · rw [htake]
        exact hstatus'
    · exact ⟨fun hp => absurd (hp.2.1.one_status fields rfl) hone,
        fun _ => failed_consumeHeaders_initial hone⟩

theorem Sound.readLater (h : Sound limit ctx heard) (received : Option Received) :
    Reads limit (received ≠ some none ∧ heard.AllowsAll limit (sectionPieces .later received))
      (received.elim (true, ctx) (consumeHeaders ctx false))
      ((sectionPieces .later received).foldl Heard.take heard) := by
  match received with
  | none => exact ⟨fun _ => ⟨rfl, h⟩, fun hnot => absurd ⟨(Option.some_ne_none none).symm, trivial⟩ hnot⟩
  | some none => exact ⟨fun hp => absurd rfl hp.1, fun _ => rfl⟩
  | some (some (fields, fin)) =>
    have htake : heard.take (.later fields, fin) = { heard with ended := heard.ended || fin } := by
      simp [Heard.take, Piece.content]
    have hfin := h.finish fin
    rw [Option.elim_some, sectionPieces, List.foldl_cons, htake]
    refine ⟨fun hp => hfin.taken fun hend => ?_, fun hnot => hfin.refused fun hend => hnot ?_⟩
    · have hstatus := hp.2.1.end_status hend
      rwa [htake] at hstatus
    · refine ⟨by simp, ⟨one_status_of_ne (Piece.later_ne_initial fields), ?_, ?_⟩, trivial⟩
      · rw [htake]
        exact h.fits
      · rw [htake]
        exact hend

/-- Nothing is there to read. -/
theorem Sound.readBody_nil (h : Sound limit ctx heard) :
    Reads limit (bodyFails [] = false ∧ heard.AllowsAll limit (handedOut [])) (Http3.readBody ctx [])
      heard := by
  have hread : Http3.readBody ctx [] = (true, ctx) := by
    simp [Http3.readBody, recvBody, h.not_failed]
  rw [hread]
  exact ⟨fun _ => ⟨rfl, h⟩, fun hnot => absurd ⟨rfl, trivial⟩ hnot⟩

/-- The body is appended while it stays within the limit. -/
theorem Sound.readBody {reads : List BodyRead} (h : Sound limit ctx heard) :
    Reads limit (bodyFails reads = false ∧ heard.AllowsAll limit (handedOut reads)) (readBody ctx reads)
      ((handedOut reads).foldl Heard.take heard) := by
  induction reads generalizing ctx heard with
  | nil => exact h.readBody_nil
  | cons read reads ih =>
    cases read with
    | again => exact h.readBody_nil
    | failed => exact ⟨fun hp => absurd hp.1 (by simp [bodyFails]), fun _ => rfl⟩
    | data bytes fin =>
      have hcontent : (heard.take (.data bytes, fin)).content = heard.content ++ bytes := rfl
      have hstatus : (heard.take (.data bytes, fin)).status = heard.status := rfl
      by_cases hlimit : 0 < bytes.length ∧ (ctx.maxResponseBodyBytes < bytes.length ∨
          ctx.maxResponseBodyBytes - bytes.length < ctx.responseBody.length)
      · -- more than the limit
        refine ⟨fun hp => ?_, fun _ => ?_⟩
        · have hfits := hp.2.1.fits
          rw [hcontent, List.length_append, ← h.content] at hfits
          rw [h.limit_eq] at hlimit
          omega
        · simp only [Http3.readBody, recvBody, if_pos hlimit]
      have hfits : (heard.content ++ bytes).length ≤ limit := by
        have hheard := h.fits
        rw [h.limit_eq, h.content] at hlimit
        rw [List.length_append]
        omega
      have happended : Sound limit { ctx with responseBody := ctx.responseBody ++ bytes }
          { heard with content := heard.content ++ bytes } :=
        ⟨⟨h.not_failed, h.gotStatus, h.httpStatus, congrArg (· ++ bytes) h.content, h.limit_eq,
          h.responseFin, h.finished, h.finished_gotStatus⟩, hfits⟩
      -- the last part of the notification
      have hlast : fin = true ∨ bytes = [] →
          Reads limit (fin = true → heard.status ≠ none) (Http3.readBody ctx (.data bytes fin :: reads))
            (heard.take (.data bytes, fin)) := by
        intro hends
        have hread : Http3.readBody ctx (.data bytes fin :: reads) = (true,
            if fin then Http3.finish { ctx with responseBody := ctx.responseBody ++ bytes }
              else { ctx with responseBody := ctx.responseBody ++ bytes }) := by
          cases fin with
          | true => simp [Http3.readBody, recvBody, hlimit, h.not_failed]
          | false =>
            obtain rfl : bytes = [] := by simpa using hends
            simp [Http3.readBody, recvBody, h.not_failed]
        rw [hread]
        exact happended.finish fin
      rw [handedOut, bodyFails, List.foldl_cons]
      by_cases hends : fin = true ∨ bytes = []
      · rw [if_pos hends, if_pos hends]
        refine ⟨fun hp => (hlast hends).taken hp.2.1.end_status, fun hnot => (hlast hends).refused ?_⟩
        exact fun hend =>
          hnot ⟨rfl, ⟨one_status_of_ne (Piece.data_ne_initial bytes), hfits, hend⟩, trivial⟩
      · -- the reading goes on
        obtain ⟨rfl, hne⟩ : fin = false ∧ bytes ≠ [] := by
          rw [not_or, Bool.not_eq_true] at hends
          exact hends
        have hread : Http3.readBody ctx (.data bytes false :: reads) =
            Http3.readBody { ctx with responseBody := ctx.responseBody ++ bytes } reads := by
          simp only [Http3.readBody, recvBody, if_neg hlimit]
          simp [hne]
        have htake : heard.take (.data bytes, false) =
            { heard with content := heard.content ++ bytes } := by
          simp [Heard.take, Piece.content]
        have hrest := ih happended
        rw [if_neg hends, if_neg hends, hread, htake]
        refine ⟨fun hp => hrest.taken ⟨hp.1, ?_⟩, fun hnot => hrest.refused fun hp => hnot ⟨hp.1, ?_⟩⟩
        · have hall := hp.2.2
          rwa [htake] at hall
        · have hopen : ¬ false = true := Bool.false_ne_true
          refine ⟨⟨one_status_of_ne (Piece.data_ne_initial bytes), hfits, fun h => absurd h hopen⟩, ?_⟩
          rw [htake]
          exact hp.2

theorem Sound.readBodyPart (h : Sound limit ctx heard) (body : Option (List BodyRead)) :
    Reads limit (body.elim false bodyFails = false ∧ heard.AllowsAll limit (body.elim [] handedOut))
      (body.elim (true, ctx) (Http3.readBody ctx)) ((body.elim [] handedOut).foldl Heard.take heard) := by
  cases body with
  | none => exact ⟨fun _ => ⟨rfl, h⟩, fun hnot => absurd ⟨rfl, trivial⟩ hnot⟩
  | some reads => exact h.readBody

/-- The end of the stream alone. -/
theorem Sound.readEnd (h : Sound limit ctx heard) (emptyFin : Bool) :
    Reads limit (heard.AllowsAll limit (if emptyFin then [(.data [], true)] else []))
      (true, if emptyFin then Http3.finish ctx else ctx)
      ((if emptyFin then [(.data [], true)] else []).foldl Heard.take heard) := by
  have hfin := h.finish emptyFin
  cases emptyFin with
  | false => exact ⟨fun _ => ⟨rfl, h⟩, fun hnot => absurd trivial hnot⟩
  | true =>
    have htake : heard.take (.data [], true) = { heard with ended := heard.ended || true } := by
      simp [Heard.take, Piece.content]
    rw [if_pos rfl, List.foldl_cons, htake]
    refine ⟨fun hp => hfin.taken fun _ => ?_, fun hnot => hfin.refused fun hend => hnot ?_⟩
    · have hstatus := hp.1.end_status rfl
      rwa [htake] at hstatus
    · refine ⟨⟨one_status_of_ne (Piece.data_ne_initial []), ?_, ?_⟩, trivial⟩
      · rw [htake]
        exact h.fits
      · rw [htake]
        exact hend

/-- **A read notification** takes in all its pieces, or flags a failure. -/
theorem sound_readNotify (h : Sound limit ctx heard) (notify : ReadNotify) :
    (notify.Accepted limit heard →
        Sound limit (readNotify ctx notify) (notify.pieces.foldl Heard.take heard)) ∧
      (¬ notify.Accepted limit heard → (readNotify ctx notify).failed = true) := by
  have hbody : ∀ ctx' : RequestContext, ctx'.failed = true →
      (notify.body.elim (true, ctx') (Http3.readBody ctx')).2.failed = true := by
    intro ctx' hfailed
    cases notify.body with
    | none => exact hfailed
    | some reads => exact (Stuck.readBody ⟨hfailed, rfl⟩).2.failed
  have htrailer : ∀ ctx' : RequestContext, ctx'.failed = true →
      (notify.trailer.elim (true, ctx') (Http3.consumeHeaders ctx' false)).2.failed = true := by
    intro ctx' hfailed
    cases notify.trailer with
    | none => exact hfailed
    | some received =>
      rw [Option.elim_some]
      exact (Stuck.consumeHeaders ⟨hfailed, rfl⟩).failed
  have hend : ∀ ctx' : RequestContext, ctx'.failed = true →
      (if notify.emptyFin then Http3.finish ctx' else ctx').failed = true := by
    intro ctx' hfailed
    split_ifs
    · exact (Stuck.finish ⟨hfailed, rfl⟩).failed
    · exact hfailed
  have hall := (((h.readInitial notify.header).thenRead
    (fun _ h₁ => h₁.readBodyPart notify.body) hbody).thenRead
    (fun _ h₂ => h₂.readLater notify.trailer) htrailer).thenRead
    (fun _ h₃ => h₃.readEnd notify.emptyFin) hend
  rw [readNotify_eq, ReadNotify.pieces, List.foldl_append, List.foldl_append, List.foldl_append]
  refine ⟨fun haccepted => (hall.taken ?_).2, fun hnot => hall.refused fun hp => hnot ?_⟩
  · obtain ⟨hheader, hbody, htrailer, hpieces⟩ := haccepted
    simp only [ReadNotify.pieces, Heard.allowsAll_append, List.foldl_append] at hpieces
    obtain ⟨⟨⟨hone, htwo⟩, hthree⟩, hfour⟩ := hpieces
    exact ⟨⟨⟨⟨hheader, hone⟩, hbody, htwo⟩, htrailer, hthree⟩, hfour⟩
  · obtain ⟨⟨⟨⟨hheader, hone⟩, hbody, htwo⟩, htrailer, hthree⟩, hfour⟩ := hp
    refine ⟨hheader, hbody, htrailer, ?_⟩
    simp only [ReadNotify.pieces, Heard.allowsAll_append, List.foldl_append]
    exact ⟨⟨⟨hone, htwo⟩, hthree⟩, hfour⟩

end

/-! ### Sending -/

/-- Sending what remains of the body comes to an answer that is not taken. -/
def sendFails : ℕ → List SendResult → Bool
  | _, [] => false
  | remaining, result :: results =>
    if remaining = 0 then false
    else match result with
      | .again => false
      | .failed => true
      | .sent n => n = 0 || remaining < n || sendFails (remaining - n) results

/-- The bytes of the request body that are still to be sent. -/
def RequestContext.remaining (ctx : RequestContext) : ℕ := ctx.body.length - ctx.requestBodySent

theorem sendPendingBody_eq (ctx : RequestContext) (results : List SendResult) :
    ∃ sent failed, sendPendingBody ctx results =
      { ctx with requestBodySent := sent, failed := failed } := by
  induction results generalizing ctx with
  | nil => exact ⟨_, _, rfl⟩
  | cons result results ih =>
    unfold sendPendingBody
    split_ifs
    · exact ⟨_, _, rfl⟩
    cases result with
    | again => exact ⟨_, _, rfl⟩
    | failed => exact ⟨_, _, rfl⟩
    | sent n =>
      dsimp only
      split_ifs
      · exact ⟨_, _, rfl⟩
      · obtain ⟨sent, failed, heq⟩ := ih { ctx with requestBodySent := ctx.requestBodySent + n }
        exact ⟨sent, failed, heq⟩

theorem handshakeFinished_eq (ctx : RequestContext) (outcome : HandshakeOutcome) :
    ∃ created sent failed, handshakeFinished ctx outcome =
      { ctx with h3Request := created, requestBodySent := sent, failed := failed } := by
  unfold handshakeFinished
  split_ifs
  · exact ⟨_, _, _, rfl⟩
  cases outcome with
  | createFailed => exact ⟨_, _, _, rfl⟩
  | sendHeadersFailed => exact ⟨_, _, _, rfl⟩
  | sent body =>
    obtain ⟨sent, failed, heq⟩ := sendPendingBody_eq { ctx with h3Request := true } body
    exact ⟨_, _, _, heq⟩

theorem sendPendingBody_failed (ctx : RequestContext) (results : List SendResult) :
    (sendPendingBody ctx results).failed =
      (ctx.failed || ctx.h3Request && sendFails ctx.remaining results) := by
  induction results generalizing ctx with
  | nil => simp [sendPendingBody, sendFails]
  | cons result results ih =>
    unfold sendPendingBody sendFails
    by_cases hdone : ctx.h3Request = false ∨ ctx.body.length ≤ ctx.requestBodySent
    · rw [if_pos hdone]
      rcases hdone with hdone | hdone
      · simp [hdone]
      · simp [RequestContext.remaining, Nat.sub_eq_zero_of_le hdone]
    · have hrequest : ctx.h3Request = true := by
        rw [not_or, Bool.not_eq_false] at hdone
        exact hdone.1
      have hremaining : ctx.remaining ≠ 0 := by
        unfold RequestContext.remaining
        omega
      rw [if_neg hdone, if_neg hremaining]
      cases result with
      | again => simp
      | failed => simp [hrequest]
      | sent n =>
        dsimp only
        by_cases hbad : n = 0 ∨ ctx.body.length - ctx.requestBodySent < n
        · rw [if_pos hbad]
          rcases hbad with hbad | hbad
          · simp [hrequest, hbad]
          · simp [hrequest, RequestContext.remaining, hbad]
        · rw [if_neg hbad, ih]
          rw [not_or, not_lt] at hbad
          have hrest : ({ ctx with requestBodySent := ctx.requestBodySent + n } :
              RequestContext).remaining = ctx.remaining - n := by
            unfold RequestContext.remaining
            dsimp only
            omega
          rw [hrest]
          simp [hrequest, hbad.1, Nat.not_lt.mpr (show n ≤ ctx.remaining from hbad.2)]

/-- What becomes of the request in the handshake is not taken. -/
def HandshakeOutcome.fails (remaining : ℕ) : HandshakeOutcome → Bool
  | .createFailed | .sendHeadersFailed => true
  | .sent body => sendFails remaining body

theorem handshakeFinished_failed (ctx : RequestContext) (outcome : HandshakeOutcome) :
    (handshakeFinished ctx outcome).failed =
      (ctx.failed || !ctx.h3Request && outcome.fails ctx.remaining) := by
  unfold handshakeFinished
  cases hrequest : ctx.h3Request with
  | true => simp
  | false =>
    cases outcome with
    | createFailed => simp [HandshakeOutcome.fails]
    | sendHeadersFailed => simp [HandshakeOutcome.fails]
    | sent body =>
      rw [if_neg (by simp)]
      dsimp only
      rw [sendPendingBody_failed]
      rfl

/-! ### Events -/

/-- An event that flags no failure, where it happens. -/
def Event.Taken (limit : ℕ) (ctx : RequestContext) (heard : Heard) : Event → Prop
  | .certRejected => True
  | .handshake outcome => (!ctx.h3Request && outcome.fails ctx.remaining) = false
  | .readable notify => notify.Accepted limit heard
  | .writable results => (ctx.h3Request && sendFails ctx.remaining results) = false
  | .socketFailed => False
  | .connClose | .closing _ => heard.ended = true
  | .streamClose streamErr => streamErr = 0 ∧ heard.ended = true

/-- Sending changes nothing of what the context has heard. -/
theorem Sound.of_sending {created : Bool} {sent : ℕ} {failed : Bool} (h : Sound limit ctx heard)
    (hfailed : failed = false) : Sound limit
      { ctx with h3Request := created, requestBodySent := sent, failed := failed } heard :=
  ⟨⟨hfailed, h.gotStatus, h.httpStatus, h.content, h.limit_eq, h.responseFin, h.finished,
    h.finished_gotStatus⟩, h.fits⟩

/-- **One event** takes in its pieces, or flags a failure. -/
theorem sound_handle (h : Sound limit ctx heard) (event : Event) :
    (event.Taken limit ctx heard →
        Sound limit (handle ctx event) (event.pieces.foldl Heard.take heard)) ∧
      (¬ event.Taken limit ctx heard → (handle ctx event).failed = true) := by
  cases event with
  | readable notify => exact sound_readNotify h notify
  -- sending changes nothing that was heard; it fails when XQUIC refuses
  | handshake outcome =>
    obtain ⟨created, sent, failed, heq⟩ := handshakeFinished_eq ctx outcome
    have hfailed := handshakeFinished_failed ctx outcome
    rw [h.not_failed, Bool.false_or, heq] at hfailed
    rw [handle, heq, Event.Taken, ← hfailed]
    exact ⟨fun hp => h.of_sending hp, fun hnot => by simpa using hnot⟩
  | writable results =>
    obtain ⟨sent, failed, heq⟩ := sendPendingBody_eq ctx results
    have hfailed := sendPendingBody_failed ctx results
    rw [h.not_failed, Bool.false_or, heq] at hfailed
    rw [handle, heq, Event.Taken, ← hfailed]
    exact ⟨fun hp => h.of_sending hp, fun hnot => by simpa using hnot⟩
  | certRejected => exact ⟨fun _ => ⟨⟨h.not_failed, h.gotStatus, h.httpStatus, h.content, h.limit_eq,
      h.responseFin, h.finished, h.finished_gotStatus⟩, h.fits⟩, fun hnot => absurd trivial hnot⟩
  | socketFailed => exact ⟨False.elim, fun _ => rfl⟩
  -- a connection that goes away does no harm once the response has ended
  | connClose =>
    have hclose : handle ctx .connClose = if heard.ended then ctx else { ctx with failed := true } := by
      rw [← h.finished]
      rfl
    have htaken : Event.Taken limit ctx heard .connClose ↔ heard.ended = true := Iff.rfl
    rw [hclose, htaken]
    exact ⟨fun hended => by rw [if_pos hended]; exact h, fun hended => by rw [if_neg hended]⟩
  | closing err =>
    have hclose : handle ctx (.closing err) =
        if heard.ended then ctx else { ctx with streamError := err, failed := true } := by
      rw [← h.finished]
      rfl
    have htaken : Event.Taken limit ctx heard (.closing err) ↔ heard.ended = true := Iff.rfl
    rw [hclose, htaken]
    exact ⟨fun hended => by rw [if_pos hended]; exact h, fun hended => by rw [if_neg hended]⟩
  | streamClose streamErr =>
    rw [handle]
    unfold closeNotify
    dsimp only
    refine ⟨?_, fun hnot => ?_⟩
    -- a clean close of a response that is over
    · rintro ⟨rfl, hended⟩
      have hgot : ctx.gotStatus = true := h.finished_gotStatus (h.finished.trans hended)
      have hfin : ctx.responseFin = true := h.responseFin.trans hended
      rw [if_neg (by simp [hgot, hfin]),
        completeResponseIfReady_of { ctx with streamError := 0 } hfin hgot h.not_failed]
      exact ⟨⟨h.not_failed, h.gotStatus, h.httpStatus, h.content, h.limit_eq, h.responseFin,
        hended.symm, fun _ => hgot⟩, h.fits⟩
    -- any other close stops the request
    · have hstuck : streamErr ≠ 0 ∨ ctx.responseFin = false ∨ ctx.gotStatus = false := by
        by_contra hall
        rw [not_or, not_or, not_not, Bool.not_eq_false] at hall
        exact hnot ⟨hall.1, h.responseFin.symm.trans hall.2.1⟩
      rw [if_pos hstuck]

theorem Stuck.sendPendingBody {b : Bool} {results : List SendResult} (h : Stuck b ctx) :
    Stuck b (sendPendingBody ctx results) := by
  obtain ⟨sent, failed, heq⟩ := sendPendingBody_eq ctx results
  have hfailed := sendPendingBody_failed ctx results
  rw [h.failed, Bool.true_or] at hfailed
  rw [heq] at hfailed ⊢
  exact ⟨hfailed, h.finished_eq⟩

theorem Stuck.handshakeFinished {b : Bool} {outcome : HandshakeOutcome} (h : Stuck b ctx) :
    Stuck b (handshakeFinished ctx outcome) := by
  obtain ⟨created, sent, failed, heq⟩ := handshakeFinished_eq ctx outcome
  have hfailed := handshakeFinished_failed ctx outcome
  rw [h.failed, Bool.true_or] at hfailed
  rw [heq] at hfailed ⊢
  exact ⟨hfailed, h.finished_eq⟩

theorem Stuck.readNotify {b : Bool} {notify : ReadNotify} (h : Stuck b ctx) :
    Stuck b (readNotify ctx notify) := by
  -- one stage after the other, and none of them takes a failure back
  have hthen : ∀ {read : Bool × RequestContext} {next : RequestContext → Bool × RequestContext},
      Stuck b read.2 → (∀ ctx', Stuck b ctx' → Stuck b (next ctx').2) →
      Stuck b (thenRead read next).2 := by
    intro read next hread hnext
    unfold thenRead
    split_ifs
    · exact hread
    · exact hnext _ hread
  have hsection : ∀ isInitial received ctx', Stuck b ctx' →
      Stuck b (Option.elim received (true, ctx') (Http3.consumeHeaders ctx' isInitial)).2 := by
    intro isInitial received ctx' hctx'
    cases received with
    | none => exact hctx'
    | some received => exact hctx'.consumeHeaders
  rw [readNotify_eq]
  refine hthen (hthen (hthen (hsection _ _ _ h) fun ctx' hctx' => ?_) fun ctx' => hsection _ _ ctx')
    fun ctx' hctx' => ?_
  · cases notify.body with
    | none => exact hctx'
    | some reads => exact hctx'.readBody.2
  · dsimp only
    split_ifs
    · exact hctx'.finish
    · exact hctx'

/-- **A failure stays flagged**, and completes nothing. -/
theorem Stuck.handle {b : Bool} (h : Stuck b ctx) (event : Event) : Stuck b (handle ctx event) := by
  cases event with
  | certRejected => exact ⟨h.failed, h.finished_eq⟩
  | handshake outcome => exact h.handshakeFinished
  | readable notify => exact h.readNotify
  | writable results => exact h.sendPendingBody
  | socketFailed => exact ⟨rfl, h.finished_eq⟩
  | connClose =>
    rw [Http3.handle]
    split_ifs
    · exact h
    · exact ⟨rfl, h.finished_eq⟩
  | closing err =>
    rw [Http3.handle]
    split_ifs
    · exact h
    · exact ⟨rfl, h.finished_eq⟩
  | streamClose streamErr =>
    rw [Http3.handle, closeNotify]
    dsimp only
    split_ifs with hincomplete
    · exact ⟨rfl, h.finished_eq⟩
    · exact Stuck.completeResponseIfReady ⟨h.failed, h.finished_eq⟩

theorem Stuck.foldl {b : Bool} (h : Stuck b ctx) (events : List Event) :
    Stuck b (events.foldl Http3.handle ctx) := by
  induction events generalizing ctx with
  | nil => exact h
  | cons event events ih => exact ih (h.handle event)

/-! ### Runs of events -/

/-- No event flags a failure where it happens. -/
def TakenAll (limit : ℕ) : RequestContext → Heard → List Event → Prop
  | _, _, [] => True
  | ctx, heard, event :: events => event.Taken limit ctx heard ∧
      TakenAll limit (handle ctx event) (event.pieces.foldl Heard.take heard) events

/-- **Any events** are taken in with all their pieces, or a failure is flagged. -/
theorem sound_foldl (h : Sound limit ctx heard) (events : List Event) :
    (TakenAll limit ctx heard events → Sound limit (events.foldl handle ctx)
        ((events.flatMap Event.pieces).foldl Heard.take heard)) ∧
      (¬ TakenAll limit ctx heard events → (events.foldl handle ctx).failed = true) := by
  induction events generalizing ctx heard with
  | nil => exact ⟨fun _ => h, fun hnot => absurd trivial hnot⟩
  | cons event events ih =>
    obtain ⟨htaken, hrefused⟩ := sound_handle h event
    rw [List.flatMap_cons, List.foldl_append, List.foldl_cons]
    by_cases hevent : event.Taken limit ctx heard
    · obtain ⟨hrest, hrest'⟩ := ih (htaken hevent)
      exact ⟨fun hall => hrest hall.2, fun hnot => hrest' fun hall => hnot ⟨hevent, hall⟩⟩
    · refine ⟨fun hall => absurd hall.1 hevent, fun _ => ?_⟩
      exact (Stuck.foldl ⟨hrefused hevent, rfl⟩ events).failed

theorem sound_newContext (req : Request) :
    Sound req.maxResponseBodyBytes.toNat (newContext req) {} :=
  ⟨⟨rfl, rfl, by simp, rfl, rfl, rfl, rfl, fun h => by cases h⟩, Nat.zero_le _⟩

end Http3

end AsterNet
