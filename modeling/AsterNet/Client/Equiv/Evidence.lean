import AsterNet.Client.Client
import AsterNet.Engine.Equiv.Selector

/-!
# Evidence about an address

After each address `execute_transport` tells the resolver how the connection went, and the quality prober
how the request went.  `evidenceMonitor` accepts this only when an engine was asked to connect to that
address since the round began.

`backed_iff`: the events of a run are accepted exactly when every round tries an engine.
-/

namespace AsterNet

open Effect Prog

/-- A round of the transport so far: the addresses engines were asked to connect to, and the addresses
reported on. -/
structure Round where
  asked : List Bytes := []
  reported : List Bytes := []

/-- Evidence about an address is backed by a request to it in the same round.  The round ends with the
sample for the quality prober. -/
def evidenceMonitor : Monitor Event Round where
  next k
    | .engineRequest _ attempt => { k with asked := attempt.connectHost :: k.asked }
    | .reportConnectionResult _ ip _ _ _ => { k with reported := ip :: k.reported }
    | .observe _ _ => {}
    | _ => k
  ok k
    | .reportConnectionResult _ ip _ _ _ => ip ∈ k.asked
    | .observe _ _ => ∀ ip ∈ k.reported, ip ∈ k.asked
    | _ => True

/-- All evidence among the events is backed. -/
def Backed (events : List Event) : Prop := evidenceMonitor.Accepts {} events

namespace Client

variable {σ : Type} (env : Env σ) (config : ClientConfig) (context : RequestContext)
  (resolution : Dns.ResolveResult)

/-- The request to one address. -/
def attemptTo (address : Dns.IpResult) : Request :=
  { context.request with connectHost := address.ip, dnsMs := resolution.elapsedMs }

/-- One round of the loop over the addresses. -/
def tryAddress (address : Dns.IpResult) (response : Response) : Prog σ (Result × Response) := do
  let attempt := attemptTo context resolution address
  let lease ← ask <| env.acquire
    { host := attempt.host, port := attempt.port, networkEpoch := context.networkEpoch }
  let outcome ← ProtocolSelector.requestWithPolicy env config.settings attempt context.policy response
  tell (env.release lease (outcome.code == .ok))
  let observedRtt := toInt (if 0 ≤ outcome.resp.ttfbMs then outcome.resp.ttfbMs
    else outcome.resp.totalMs)
  Program.emit (.reportConnectionResult attempt.host attempt.connectHost context.networkEpoch
    (outcome.code == .ok) observedRtt)
  tell (env.reportConnectionResult attempt.host attempt.connectHost context.networkEpoch
    (outcome.code == .ok) observedRtt)
  Program.emit (.observe (outcome.code == .ok) observedRtt)
  tell (env.observe (outcome.code == .ok) observedRtt)
  pure (outcome.code, outcome.resp)

/-- The world in which a round asks the selector. -/
def leased (w : World σ) : World σ :=
  { w with out := (env.acquire
    { host := context.request.host, port := context.request.port,
      networkEpoch := context.networkEpoch } w.out).2 }

/-- Every round tries an engine; the next round comes after a connection that failed. -/
def RoundsTry : List Dns.IpResult → Response → World σ → Prop
  | [], _, _ => True
  | address :: rest, response, w =>
    ProtocolSelector.triesPolicy env (attemptTo context resolution address) context.policy
      (leased env context w) = true ∧
    let round := tryAddress env config context resolution address response w
    (round.val.1 = .errConnect → RoundsTry rest round.val.2 round.post)

theorem tryAddresses_cons (address : Dns.IpResult) (rest : List Dns.IpResult) (result : Result)
    (response : Response) (w : World σ) :
    tryAddresses env config context resolution (address :: rest) result response w =
      let round := tryAddress env config context resolution address response w
      ((if round.val.1 = .errConnect then
          tryAddresses env config context resolution rest round.val.1 round.val.2
        else pure round.val) round.post).after round.events := by
  unfold tryAddress attemptTo
  rw [tryAddresses]
  simp only [Program.bind_apply, ask_apply, tell_apply, Program.emit_apply, Outcome.after,
    Program.pure_apply, List.append_assoc, List.nil_append, List.cons_append, List.append_nil]

/-- The events of a round: the selector's, and then the evidence. -/
theorem events_tryAddress (address : Dns.IpResult) (response : Response) (w : World σ) :
    ∃ success rttMs, (tryAddress env config context resolution address response w).events =
      (ProtocolSelector.requestWithPolicy env config.settings (attemptTo context resolution address)
        context.policy response (leased env context w)).events ++
        [.reportConnectionResult context.request.host address.ip context.networkEpoch success rttMs,
          .observe success rttMs] := by
  unfold tryAddress
  simp only [Program.bind_apply, ask_apply, tell_apply, Program.emit_apply, Program.pure_apply,
    List.nil_append, List.cons_append, List.append_nil]
  exact ⟨_, _, rfl⟩

/-! ### The monitor over one round -/

/-- Readings of the clock, and requests to one address. -/
theorem run_of_asks {ip : Bytes} {events : List Event}
    (h : ∀ e ∈ events, (∃ site t, e = .clock site t) ∨ e.Asks ip) (k : Round) :
    evidenceMonitor.Accepts k events ∧ (evidenceMonitor.run k events).reported = k.reported ∧
      (ip ∈ (evidenceMonitor.run k events).asked ↔ ip ∈ k.asked ∨ ∃ e ∈ events, e.Asks ip) := by
  induction events generalizing k with
  | nil => simp
  | cons e events ih =>
    have hrest := ih fun e' he' => h e' (List.mem_cons_of_mem _ he')
    rcases h e List.mem_cons_self with ⟨site, t, rfl⟩ | hasks
    · obtain ⟨haccepts, hreported, hasked⟩ := hrest k
      refine ⟨⟨trivial, haccepts⟩, hreported, hasked.trans ?_⟩
      simp [Event.Asks]
    · cases e with
      | engineRequest type attempt =>
        obtain rfl : attempt.connectHost = ip := hasks
        obtain ⟨haccepts, hreported, hasked⟩ :=
          hrest { k with asked := attempt.connectHost :: k.asked }
        refine ⟨⟨trivial, haccepts⟩, hreported, hasked.trans ?_⟩
        simp [Event.Asks]
      | _ => exact hasks.elim

/-- A round is accepted exactly when it tries an engine, and the next round begins anew. -/
theorem accepts_tryAddress (address : Dns.IpResult) (response : Response) (w : World σ) :
    (evidenceMonitor.Accepts {} (tryAddress env config context resolution address response w).events ↔
      ProtocolSelector.triesPolicy env (attemptTo context resolution address) context.policy
        (leased env context w) = true) ∧
    evidenceMonitor.run {} (tryAddress env config context resolution address response w).events = {} := by
  obtain ⟨success, rttMs, hevents⟩ := events_tryAddress env config context resolution address response w
  have hselector := ProtocolSelector.emits_requestWithPolicy env config.settings
    (attemptTo context resolution address) context.policy
    (P := fun e => (∃ site t, e = .clock site t) ∨ e.Asks address.ip)
    (fun site t => .inl ⟨site, t, rfl⟩) (fun e => .inr) response (leased env context w)
  -- nothing in the selector's own events is evidence
  obtain ⟨haccepts, hreported, hasked⟩ := run_of_asks hselector {}
  have htries := ProtocolSelector.asks_iff_triesPolicy env config.settings
    (attemptTo context resolution address) context.policy (leased env context w) response
  -- the round is those events and the two reports behind them
  rw [hevents, Monitor.accepts_append, Monitor.run_append]
  refine ⟨?_, rfl⟩
  -- the evidence of the round stands behind the engine requests of its selector
  rw [← htries]
  constructor
  · rintro ⟨-, hreport, -⟩
    exact (hasked.mp hreport).resolve_left List.not_mem_nil
  · intro hasks
    have hmem := hasked.mpr (.inr hasks)
    refine ⟨haccepts, hmem, ?_, trivial⟩
    intro ip hip
    rcases List.mem_cons.mp hip with rfl | hip
    · exact hmem
    · rw [hreported] at hip
      cases hip

/-! ### The transport -/

theorem accepts_tryAddresses (addresses : List Dns.IpResult) (result : Result) (response : Response)
    (w : World σ) :
    evidenceMonitor.Accepts {}
      (tryAddresses env config context resolution addresses result response w).events ↔
      RoundsTry env config context resolution addresses response w := by
  induction addresses generalizing result response w with
  | nil => exact ⟨fun _ => trivial, fun _ => trivial⟩
  | cons address rest ih =>
    obtain ⟨hround, hrun⟩ := accepts_tryAddress env config context resolution address response w
    rw [tryAddresses_cons, RoundsTry]
    dsimp only
    rw [Outcome.after_events, Monitor.accepts_append, hround, hrun]
    refine and_congr_right fun _ => ?_
    split_ifs with hconnect
    · rw [ih]
      exact ⟨fun h _ => h, fun h => h hconnect⟩
    · exact ⟨fun _ h => absurd h hconnect, fun _ => trivial⟩

/-- The resolution of a transport, and the world after it. -/
def resolve (w : World σ) : Dns.ResolveResult × World σ :=
  let resolved := env.resolveWithMetadata context.request.host context.networkEpoch
    context.request.timeoutMs w.out
  (resolved.1, { w with out := resolved.2 })

/-- The context that tells where the addresses come from. -/
def noteCacheHit : RequestContext :=
  { context with
    dnsCacheHit := if context.attempts ≤ 1 then resolution.cacheHit else context.dnsCacheHit }

/-- The addresses a transport may try. -/
def addressesToTry : List Dns.IpResult :=
  resolution.addresses.take (if context.request.retrySafe then 2 else 1)

theorem events_executeTransport (response : Response) (w : World σ) :
    (executeTransport env config context response w).events =
      [.resolve context.request.host context.networkEpoch context.request.timeoutMs,
        .resolved (resolve env context w).1] ++
      if (resolve env context w).1.error ≠ .ok ∨ (resolve env context w).1.addresses.isEmpty then
        [.observe false (-1)]
      else
        (tryAddresses env config (noteCacheHit context (resolve env context w).1)
          (resolve env context w).1 (addressesToTry context (resolve env context w).1) .errConnect
          { response with dnsMs := (resolve env context w).1.elapsedMs }
          (resolve env context w).2).events := by
  unfold executeTransport resolve noteCacheHit addressesToTry
  dsimp only
  -- the question and its answer come first, whatever they are
  rw [Program.bind_apply_after, Program.emit_apply, Program.bind_apply_after, ask_apply,
    Program.bind_apply_after, Program.emit_apply, Outcome.after_events, Outcome.after_events,
    Outcome.after_events, List.nil_append, List.singleton_append]
  dsimp only
  -- a failed resolution is observed and ends the transport; otherwise the rounds follow
  by_cases hfailed : (env.resolveWithMetadata context.request.host context.networkEpoch
      context.request.timeoutMs w.out).1.error ≠ .ok ∨
    (env.resolveWithMetadata context.request.host context.networkEpoch
      context.request.timeoutMs w.out).1.addresses.isEmpty = true
  · rw [if_pos hfailed, if_pos hfailed]
    rfl
  · rw [if_neg hfailed, if_neg hfailed, Program.bind_apply_after, Outcome.after_events,
      Program.pure_apply, List.append_nil]
    rfl

/-- Every round of the transport tries an engine, if there are any rounds. -/
def TransportTries (response : Response) (w : World σ) : Prop :=
  let resolution := (resolve env context w).1
  resolution.error = .ok →
    RoundsTry env config (noteCacheHit context resolution) resolution
      (addressesToTry context resolution) { response with dnsMs := resolution.elapsedMs }
      (resolve env context w).2

/-- **Evidence is backed exactly when every round tries an engine.** -/
theorem backed_iff (response : Response) (w : World σ) :
    Backed (executeTransport env config context response w).events ↔
      TransportTries env config context response w := by
  -- a resolution asks for no evidence
  have hresolution : evidenceMonitor.Accepts {}
      [.resolve context.request.host context.networkEpoch context.request.timeoutMs,
        .resolved (resolve env context w).1] := ⟨trivial, trivial, trivial⟩
  rw [Backed, events_executeTransport, Monitor.accepts_append, TransportTries]
  by_cases hfailed : (resolve env context w).1.error ≠ .ok ∨
    (resolve env context w).1.addresses.isEmpty = true
  · rw [if_pos hfailed]
    refine ⟨fun _ herror => ?_, fun _ => ⟨hresolution, ?_, trivial⟩⟩
    · -- no addresses, no rounds
      have hempty := List.isEmpty_iff.mp (hfailed.resolve_left (not_not.mpr herror))
      rw [addressesToTry, hempty, List.take_nil]
      trivial
    · intro ip hip
      -- the one observation of a failed resolution names no address
      cases hip
  · rw [if_neg hfailed]
    rw [not_or, not_not] at hfailed
    -- the rounds are accepted one by one, each from the beginning
    have haddresses := accepts_tryAddresses env config
      (noteCacheHit context (resolve env context w).1) (resolve env context w).1
      (addressesToTry context (resolve env context w).1) .errConnect
      { response with dnsMs := (resolve env context w).1.elapsedMs } (resolve env context w).2
    constructor
    · rintro ⟨-, haccepts⟩ -
      exact haddresses.mp haccepts
    · intro htries
      exact ⟨hresolution, haddresses.mpr (htries hfailed.1)⟩

/-- The outside of a client without HTTP/3: the engines of HTTP/1.1 and HTTP/2 are built, and find every
host refusing. -/
def withoutHttp3 : Env ℕ :=
  { ProtocolSelector.refusing with
    engine := fun type =>
      if type = .http3 then none
      else some fun _ t => ((.errConnect, { failureStage := "connect" }), t) }

/-- A `GET` under the policy that only HTTP/3 could serve, which is not built: nothing is asked of the
address, and it is reported as failed. -/
theorem not_backed_http3Only : ¬ Backed (executeTransport withoutHttp3 {}
    { request := ProtocolSelector.refusedGet, policy := .http3Only } {} ⟨1, ∅⟩).events := by
  intro h
  exact absurd ((backed_iff _ _ _ _ _).mp h rfl).1 (by decide)

end Client

end AsterNet
