import AsterNet.Engine.Http1.Equiv.Request
import AsterNet.Engine.Http1.Timing

/-!
# The timeout of an HTTP/1.1 request

`RespectsTimeout`: whatever the server does within the timeouts of the socket, no `SSL_write` and no
`SSL_read` starts later than `timeout_ms` after the request, and no socket call waits longer.  There is no
deadline in the loops, so a server can always break this once the request is written
(`respectsTimeout_iff`): by a connection that takes long to open, by a socket whose timeout is that of an
earlier request, or by interim responses that come one by one.
-/

namespace AsterNet

namespace Http1

open ByteString Segmented

/-! ### The condition -/

/-- The calls are within the timeout. -/
def Respects (timeoutMs : ℤ) (calls : List TimedCall) : Prop :=
  ∀ c ∈ calls, (c.kind = .write ∨ c.kind = .read → (c.start : ℤ) ≤ timeoutMs) ∧
    ∀ wait ∈ c.waits, (wait : ℤ) ≤ timeoutMs

/-- The request is within its own timeout, whatever the server does. -/
def RespectsTimeout (engine : TimedEngine) (req : Request) : Prop :=
  ∀ server : Server, server.Admissible engine req →
    Respects req.timeoutMs (timedRequest server engine req).1

/-- The request is refused before anything is written. -/
def Refused (req : Request) : Prop :=
  (hasCrlf req.host || hasCrlf req.connectHost || hasCrlf req.method || hasCrlf req.path) = true ∨
    customHeaders req.headers = none

/-- The request has the connection of the engine. -/
def Reuses (engine : TimedEngine) (req : Request) : Prop :=
  ∃ timeoutMs, engine.connection = some (poolKey engine.settings req, timeoutMs)

/-! ### Schedules -/

theorem mem_schedule {waits : ℕ → List ℕ} {start i : ℕ} {kinds : List CallKind} {c : TimedCall}
    (h : c ∈ schedule waits start i kinds) : c.kind ∈ kinds ∧ ∃ j, c.waits = waits j := by
  induction kinds generalizing start i with
  | nil => cases h
  | cons kind kinds ih =>
    rcases List.mem_cons.mp h with rfl | h
    · exact ⟨List.mem_cons_self, i, rfl⟩
    · obtain ⟨hkind, hwaits⟩ := ih h
      exact ⟨List.mem_cons_of_mem _ hkind, hwaits⟩

/-- When each call waits as long, they start in equal steps. -/
theorem mem_schedule_uniform {wait start i j : ℕ} {kinds : List CallKind} {kind : CallKind}
    (h : kinds[j]? = some kind) :
    ⟨kind, start + j * wait, [wait]⟩ ∈ schedule (fun _ => [wait]) start i kinds := by
  induction kinds generalizing start i j with
  | nil => cases h
  | cons first kinds ih =>
    cases j with
    | zero =>
      obtain rfl := Option.some.inj h
      rw [Nat.zero_mul, Nat.add_zero]
      exact List.mem_cons_self
    | succ j =>
      refine List.mem_cons_of_mem _ ?_
      have hmem := @ih (start + [wait].sum) (i + 1) j h
      rw [List.sum_singleton] at hmem
      rwa [show start + (j + 1) * wait = start + wait + j * wait by rw [Nat.succ_mul]; omega]

/-! ### The connection -/

theorem timedConnection_of_reuses {server : Server} {engine : TimedEngine} {req : Request} {timeoutMs : ℤ}
    (h : engine.connection = some (poolKey engine.settings req, timeoutMs)) :
    timedConnection server engine req = .ok ((poolKey engine.settings req, timeoutMs), true) := by
  unfold timedConnection ensureConnection
  rw [h]
  exact if_pos rfl

theorem timedConnection_of_not_reuses {server : Server} {engine : TimedEngine} {req : Request}
    (h : ¬ Reuses engine req) : timedConnection server engine req =
      server.dial.map fun _ => ((poolKey engine.settings req, req.timeoutMs), false) := by
  have hnew : ((server.dial.map fun _ => req.timeoutMs).map fun timeoutMs =>
      ((poolKey engine.settings req, timeoutMs), false)) =
        server.dial.map fun _ => ((poolKey engine.settings req, req.timeoutMs), false) := by
    cases server.dial <;> rfl
  unfold timedConnection ensureConnection
  cases hconnection : engine.connection with
  | none => exact hnew
  | some connection =>
    obtain ⟨key, timeoutMs⟩ := connection
    have hkey : key ≠ poolKey engine.settings req := by
      rintro rfl
      exact h ⟨timeoutMs, hconnection⟩
    dsimp only
    rw [if_neg hkey]
    exact hnew

theorem socketTimeout_of_reuses {engine : TimedEngine} {req : Request} {timeoutMs : ℤ}
    (h : engine.connection = some (poolKey engine.settings req, timeoutMs)) :
    socketTimeout engine req = timeoutMs := by
  rw [socketTimeout, h]
  exact if_pos rfl

theorem socketTimeout_of_not_reuses {engine : TimedEngine} {req : Request} (h : ¬ Reuses engine req) :
    socketTimeout engine req = req.timeoutMs := by
  unfold socketTimeout
  cases hconnection : engine.connection with
  | none => rfl
  | some connection =>
    obtain ⟨key, timeoutMs⟩ := connection
    refine if_neg ?_
    rintro rfl
    exact h ⟨timeoutMs, hconnection⟩

/-- **A kept connection has the timeout it was opened with.** -/
theorem timeout_of_reuses {server : Server} {engine : TimedEngine} {req : Request} {timeoutMs : ℤ}
    {key : PoolKey} {kept : ℤ} (h : engine.connection = some (poolKey engine.settings req, timeoutMs))
    (hkept : (timedRequest server engine req).2.connection = some (key, kept)) :
    key = poolKey engine.settings req ∧ kept = timeoutMs := by
  unfold timedRequest at hkept
  rw [timedConnection_of_reuses h] at hkept
  obtain ⟨connection, -, heq⟩ := Option.map_eq_some_iff.mp hkept
  exact ⟨(Prod.mk.inj heq).1.symm, (Prod.mk.inj heq).2.symm⟩

/-! ### The calls of a request -/

theorem exchangeCalls_of_refused {req : Request} {ssl : Ssl} (h : Refused req) :
    exchangeCalls req ssl = [] := by
  unfold exchangeCalls
  rcases h with h | h
  · rw [if_pos h]
  · rw [h]
    exact ite_self _

/-- All calls on the connection are of TLS. -/
theorem write_or_read_of_mem {req : Request} {ssl : Ssl} {kind : CallKind}
    (h : kind ∈ exchangeCalls req ssl) : kind = .write ∨ kind = .read := by
  unfold exchangeCalls at h
  split_ifs at h with hcrlf
  · cases h
  · cases hcustom : customHeaders req.headers with
    | none =>
      rw [hcustom] at h
      cases h
    | some custom =>
      rw [hcustom] at h
      rcases List.mem_append.mp h with h | h
      · exact .inl (List.eq_of_mem_replicate h)
      · cases hwrite : writeAll (requestText req custom) ssl with
        | none =>
          rw [hwrite] at h
          cases h
        | some ssl' =>
          rw [hwrite] at h
          exact .inr (List.eq_of_mem_replicate h)

theorem requestText_ne_nil {req : Request} {custom : List Header} : requestText req custom ≠ [] := by
  have hcrlf : crlf ≠ [] := by decide
  simp [requestText, hcrlf]

theorem writeCalls_pos {data : Bytes} {ssl : Ssl} (h : data ≠ []) : 0 < writeCalls data ssl := by
  rw [writeCalls, dif_neg h]
  split <;> omega

/-- A request that is not refused writes, and then reads the response. -/
theorem exchangeCalls_of_not_refused {req : Request} (source : Source) (h : ¬ Refused req) :
    ∃ writes, 0 < writes ∧ exchangeCalls req { source := source } =
      List.replicate writes .write ++ List.replicate (responseCalls req source) .read := by
  rw [Refused, not_or] at h
  obtain ⟨custom, hcustom⟩ := Option.ne_none_iff_exists'.mp h.2
  obtain ⟨ssl, hwrite⟩ := @writeAll_isSome (requestText req custom) { source := source } (by simp)
  refine ⟨writeCalls (requestText req custom) { source := source }, writeCalls_pos requestText_ne_nil, ?_⟩
  unfold exchangeCalls
  rw [if_neg h.1, hcustom]
  dsimp only
  rw [hwrite]
  dsimp only
  rw [(writeAll_some hwrite).2]

/-! ### Interim responses without end -/

/-- An interim response. -/
def interimPiece : Bytes := ascii "HTTP/1.1 100 Continue" ++ crlf ++ crlf

/-- So many interim responses, each in its own piece, with an empty piece in front. -/
def drip (n : ℕ) : Source := ⟨[] :: List.replicate n interimPiece, .eof⟩

theorem read_drip {n : ℕ} : (drip (n + 1)).read bufSize = .positive interimPiece (drip n) := by
  have hpiece : interimPiece = 72 :: interimPiece.drop 1 := by decide +kernel
  have htake : interimPiece.take bufSize = interimPiece := by decide +kernel
  have hdrop : interimPiece.drop bufSize = [] := by decide +kernel
  rw [drip, List.replicate_succ, Source.read, hpiece, Source.read, if_neg (by decide), ← hpiece, htake,
    hdrop, drip]

theorem readHeaders_drip {n : ℕ} : readHeaders [] (drip (n + 1)) = (interimPiece, drip n) := by
  have hpending : headersPending [] = true := by decide
  have hdone : headersPending interimPiece = false := by decide +kernel
  obtain ⟨hc, -⟩ | ⟨-, hempty, -⟩ | ⟨d, rest, -, hread, heq⟩ :=
    readWhile_cases headersPending (fun _ => bufSize) [] (drip (n + 1))
  · rw [hpending] at hc
    cases hc
  · rcases hempty with hzero | hbytes
    · exact absurd hzero (by decide)
    · have hlt := Source.length_bytes_lt_of_read (@read_drip n)
      rw [hbytes] at hlt
      exact absurd hlt (Nat.not_lt_zero _)
  · rw [read_drip] at hread
    obtain ⟨rfl, rfl⟩ := ReadResult.positive.inj hread
    rw [readHeaders, heq, List.nil_append, readWhile, hdone]
    rfl

/-- Each interim response takes a read. -/
theorem le_headCalls_drip {n : ℕ} {httpStatus : ℤ} : n ≤ headCalls httpStatus [] (drip n) := by
  -- each turn of the loop takes one interim response off
  induction n generalizing httpStatus with
  | zero => exact Nat.zero_le _
  | succ n ih =>
    have hmark : find emptyLineMark interimPiece = some 21 := by decide +kernel
    have hrest : interimPiece.drop (21 + 4) = [] := by decide +kernel
    have hshort : ¬ kMaxResponseHeaders < interimPiece.length := by decide +kernel
    have hstatus : parseStatus interimPiece httpStatus = 100 := by
      have hfirst : find [32] interimPiece = some 8 := by decide +kernel
      have hsecond : findFrom [32] interimPiece (8 + 1) = some 12 := by decide +kernel
      have hnumber : atoi (cStr (interimPiece.drop (8 + 1))) = 100 := by decide +kernel
      unfold parseStatus
      rw [hfirst]
      dsimp only
      rw [hsecond]
      exact hnumber
    have hread : 0 < readCalls headersPending (fun _ => bufSize) [] (drip (n + 1)) := by
      rw [readCalls, if_pos (by decide)]
      split <;> omega
    rw [headCalls]
    split
    rename_i raw' source' hr
    rw [readHeaders_drip] at hr
    obtain ⟨rfl, rfl⟩ := Prod.mk.inj hr
    split
    · rename_i hnone
      rw [hmark] at hnone
      cases hnone
    -- the section is an interim one, and nothing is left behind it
    · rename_i headerEnd hsome
      rw [hmark] at hsome
      obtain rfl := Option.some.inj hsome
      rw [if_neg hshort]
      dsimp only
      rw [hstatus, if_pos (by decide), hrest]
      have hle := @ih 100
      omega

theorem le_responseCalls_drip {req : Request} {n : ℕ} : n ≤ responseCalls req (drip n) :=
  Nat.le_trans le_headCalls_drip (Nat.le_add_right _ _)

/-! ### Requests -/

/-- A server all of whose calls wait as long. -/
def steady (source : Source) (wait : ℕ) : Server where
  ssl := { source := source }
  waits _ := [wait]

theorem admissible_steady {engine : TimedEngine} {req : Request} {source : Source} {wait : ℕ}
    (h : Within (socketTimeout engine req) wait) : (steady source wait).Admissible engine req := by
  intro i w hw
  rwa [List.mem_singleton.mp hw]

/-- The calls of a request on a connection that is there. -/
theorem timedRequest_of_reuses {server : Server} {engine : TimedEngine} {req : Request} {timeoutMs : ℤ}
    (h : engine.connection = some (poolKey engine.settings req, timeoutMs)) :
    (timedRequest server engine req).1 = schedule server.waits 0 0 (exchangeCalls req server.ssl) := by
  rw [timedRequest, timedConnection_of_reuses h]
  rfl

/-- The calls of a request on a new connection. -/
theorem timedRequest_steady_of_not_reuses {engine : TimedEngine} {req : Request} {source : Source}
    {wait : ℕ} (h : ¬ Reuses engine req) : (timedRequest (steady source wait) engine req).1 =
      schedule (fun _ => [wait]) 0 0
        (.connect :: .handshake :: exchangeCalls req { source := source }) := by
  rw [timedRequest, timedConnection_of_not_reuses h]
  rfl

theorem kind_of_mem_openingCalls {attempts : ℕ} {dial : Except DialFailure Unit} {kind : CallKind}
    (h : kind ∈ openingCalls attempts dial) : kind = .connect ∨ kind = .handshake := by
  have hboth : kind ∈ List.replicate attempts CallKind.connect ++ [.handshake] →
      kind = .connect ∨ kind = .handshake := by
    intro hmem
    rw [List.mem_append, List.mem_singleton] at hmem
    exact hmem.imp List.eq_of_mem_replicate id
  unfold openingCalls at h
  split at h
  · exact hboth h
  · exact hboth h
  · exact hboth h
  · exact .inl (List.eq_of_mem_replicate h)

/-- A request that is refused only opens a connection. -/
theorem respects_of_refused {engine : TimedEngine} {req : Request} {server : Server}
    (hrefused : Refused req) (hor : Reuses engine req ∨ 0 < req.timeoutMs)
    (hserver : server.Admissible engine req) :
    Respects req.timeoutMs (timedRequest server engine req).1 := by
  by_cases hreuses : Reuses engine req
  -- on a pooled connection nothing is called at all
  · obtain ⟨timeoutMs, hconnection⟩ := hreuses
    rw [timedRequest_of_reuses hconnection, exchangeCalls_of_refused hrefused]
    rintro c ⟨⟩
  · have hpos := hor.resolve_left hreuses
    have hopening : ∀ dial, Respects req.timeoutMs
        (schedule server.waits server.lookup 0 (openingCalls server.attempts dial)) := by
      intro dial c hc
      obtain ⟨hkind, j, hwaits⟩ := mem_schedule hc
      constructor
      · intro htls
        rcases kind_of_mem_openingCalls hkind with hopen | hopen <;> rw [hopen] at htls <;> simp at htls
      · intro wait hwait
        rw [hwaits] at hwait
        have hwithin := hserver j wait hwait
        rw [socketTimeout_of_not_reuses hreuses] at hwithin
        exact hwithin hpos
    -- without one, only the calls that open it are made
    unfold timedRequest
    rw [timedConnection_of_not_reuses hreuses]
    cases hdial : server.dial with
    | error failure => exact hopening (.error failure)
    | ok u =>
      dsimp only [Except.map]
      rw [exchangeCalls_of_refused hrefused, List.append_nil]
      exact hopening (.ok ())

/-- A request that is written on a connection opened with a timeout of its own is late or waits too
long. -/
theorem not_respects_of_reuses {engine : TimedEngine} {req : Request} {timeoutMs : ℤ}
    (hrefused : ¬ Refused req)
    (h : engine.connection = some (poolKey engine.settings req, timeoutMs)) :
    ¬ RespectsTimeout engine req := by
  intro hrespects
  -- the pooled socket keeps the timeout it was opened with
  have htimeout := socketTimeout_of_reuses h
  by_cases hshort : 0 < timeoutMs ∧ timeoutMs ≤ req.timeoutMs
  · -- interim responses, one in each timeout of the socket
    obtain ⟨hpos, hle⟩ := hshort
    have hserver : (steady (drip (req.timeoutMs.toNat + 2)) timeoutMs.toNat).Admissible engine req := by
      refine admissible_steady ?_
      rw [htimeout]
      intro _
      omega
    obtain ⟨writes, hwrites, hcalls⟩ :=
      exchangeCalls_of_not_refused (drip (req.timeoutMs.toNat + 2)) hrefused
    have hreads := @le_responseCalls_drip req (req.timeoutMs.toNat + 2)
    have hlt : req.timeoutMs.toNat + 1 <
        (exchangeCalls req { source := drip (req.timeoutMs.toNat + 2) }).length := by
      rw [hcalls, List.length_append, List.length_replicate, List.length_replicate]
      omega
    have hrun := hrespects _ hserver
    rw [timedRequest_of_reuses h] at hrun
    have hlate := (hrun _ (mem_schedule_uniform (List.getElem?_eq_getElem hlt))).1
      (write_or_read_of_mem (List.getElem_mem hlt))
    have hsteps : (req.timeoutMs.toNat + 1) * 1 ≤ (req.timeoutMs.toNat + 1) * timeoutMs.toNat :=
      Nat.mul_le_mul_left _ (by omega)
    dsimp only at hlate
    omega
  · -- one call that waits longer
    have hserver : (steady (drip 0) (req.timeoutMs + 1).toNat).Admissible engine req := by
      refine admissible_steady ?_
      rw [htimeout]
      intro hpos
      omega
    obtain ⟨writes, hwrites, hcalls⟩ := exchangeCalls_of_not_refused (drip 0) hrefused
    have hlt : 0 < (exchangeCalls req { source := drip 0 }).length := by
      rw [hcalls, List.length_append, List.length_replicate]
      omega
    have hrun := hrespects _ hserver
    rw [timedRequest_of_reuses h] at hrun
    have hwait := (hrun _ (mem_schedule_uniform (List.getElem?_eq_getElem hlt))).2 _
      (List.mem_singleton_self _)
    omega

/-- Opening a connection alone can take the timeout twice. -/
theorem not_respects_of_not_reuses {engine : TimedEngine} {req : Request}
    (hrefused : ¬ Refused req ∨ req.timeoutMs ≤ 0) (h : ¬ Reuses engine req) :
    ¬ RespectsTimeout engine req := by
  intro hrespects
  have htimeout := socketTimeout_of_not_reuses h
  -- a connect, a handshake and a write, each of which may take the whole timeout
  by_cases hpos : 0 < req.timeoutMs
  · have hserver : (steady (drip 0) req.timeoutMs.toNat).Admissible engine req := by
      refine admissible_steady ?_
      rw [htimeout]
      intro _
      omega
    obtain ⟨writes, hwrites, hcalls⟩ :=
      exchangeCalls_of_not_refused (drip 0) (hrefused.resolve_right (by omega))
    have hwrite : (CallKind.connect :: .handshake :: exchangeCalls req { source := drip 0 })[2]? =
        some .write := by
      obtain ⟨writes, rfl⟩ := Nat.exists_eq_add_of_lt hwrites
      rw [hcalls, Nat.zero_add, List.replicate_succ]
      rfl
    have hrun := hrespects _ hserver
    rw [timedRequest_steady_of_not_reuses h] at hrun
    have hlate := (hrun _ (mem_schedule_uniform hwrite)).1 (.inl rfl)
    dsimp only at hlate
    omega
  -- without a timeout any wait is too long
  · have hserver : (steady (drip 0) 1).Admissible engine req := by
      refine admissible_steady ?_
      rw [htimeout]
      intro hpos'
      exact absurd hpos' hpos
    have hrun := hrespects _ hserver
    rw [timedRequest_steady_of_not_reuses h] at hrun
    have hwait := (hrun _ List.mem_cons_self).2 1 (List.mem_singleton_self _)
    omega

/-- **A request is within its own timeout**, whatever the server does, exactly when it is refused before
anything is written, on a connection that is there or with a timeout that is set. -/
theorem respectsTimeout_iff {engine : TimedEngine} {req : Request} :
    RespectsTimeout engine req ↔ Refused req ∧ (Reuses engine req ∨ 0 < req.timeoutMs) := by
  constructor
  · intro hrespects
    by_cases hreuses : Reuses engine req
    · obtain ⟨timeoutMs, hconnection⟩ := hreuses
      refine ⟨?_, .inl ⟨timeoutMs, hconnection⟩⟩
      by_contra hrefused
      exact not_respects_of_reuses hrefused hconnection hrespects
    · constructor
      · by_contra hrefused
        exact not_respects_of_not_reuses (.inl hrefused) hreuses hrespects
      · refine .inr ?_
        by_contra hpos
        exact not_respects_of_not_reuses (.inr (by omega)) hreuses hrespects
  · rintro ⟨hrefused, hor⟩ server hserver
    exact respects_of_refused hrefused hor hserver

/-- A request with a timeout of one second, on a connection that one with fifteen seconds has opened. -/
theorem not_respectsTimeout_reused : ¬ RespectsTimeout
    { connection := some (poolKey {} { host := ascii "h", timeoutMs := 1000 }, 15000) }
    { host := ascii "h", timeoutMs := 1000 } := by
  refine not_respects_of_reuses ?_ rfl
  rw [Refused]
  decide +kernel

end Http1

end AsterNet
