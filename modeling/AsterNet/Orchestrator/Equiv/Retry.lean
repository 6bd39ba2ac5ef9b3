import AsterNet.Orchestrator.Interceptor
import AsterNet.Client.Client
import AsterNet.Engine.Equiv.Selector
import Mathlib.Data.List.Chain

/-!
# The law of the retry loop

`retryLoopRecorded` is `retryLoop` with a record of its rounds: what the clock said when a call's
budget was taken, what the call was handed, what it left, and what the clock said before the backoff.
`retryRecorded_reply` forgets the record and gets `retry` back, so what is said of the record is said of
`RetryInterceptor::intercept`.

* `lawful_retryLoopRecorded`: every run of the loop obeys `Lawful`.
* `retry_law`: the law of `retry`, for every terminal, clock and outside.
-/

namespace AsterNet

open Effect Prog

/-- `response.attempts = context.attempts`, after a call. -/
def Reply.reported (reply : Reply) : Reply :=
  { reply with response := { reply.response with attempts := reply.context.attempts } }

namespace Orchestrator

/-- A round of the retry loop that made its call. -/
structure Round where
  /-- `monotonic_ms()` when the call's budget was taken. -/
  startMs : ℕ
  /-- The arguments of the call. -/
  context : RequestContext
  response : Response
  /-- The result and the arguments after the call, with the attempts reported. -/
  after : Reply
  /-- The reading before the backoff and the delay, where the round came so far. -/
  backoff : Option (ℕ × ℤ)
  deriving DecidableEq, Repr

/-- A run of the retry loop. -/
structure Record where
  reply : Reply
  rounds : List Round
  /-- The reading at which the deadline had passed before a call could be made. -/
  expired : Option ℕ
  deriving DecidableEq, Repr

/-- A run with one more round before it. -/
def Record.cons (round : Round) (rest : Record) : Record :=
  { rest with rounds := round :: rest.rounds }

/-- `delay_ms` of a round. -/
def delayMs (attempt : ℕ) (requestId : ℕ) : ℤ :=
  min 400 (50 * 2 ^ min attempt 3) + (requestId % 31 : ℕ)

variable {σ : Type} (env : Env σ)

/-- `retryLoop`, with its rounds recorded. -/
def retryLoopRecorded (chain : Terminal σ) (initialTimeout deadlineMs : ℤ) :
    ℕ → ℕ → RequestContext → Response → Prog σ Record
  | left, attempt, context, response => do
    let t ← now env .retryRemaining
    let remainingMs := toInt (deadlineMs - t)
    if remainingMs ≤ 0 then
      pure
        { reply :=
            { result := .errTimeout
              context
              response := { response with errCode := .errTimeout, failureStage := "deadline" } }
          rounds := []
          expired := some t }
    else do
      let handed := context.forAttempt remainingMs
      let fresh : Response := {}
      let reply ← chain handed fresh
      let round (backoff : Option (ℕ × ℤ)) : Round :=
        { startMs := t, context := handed, response := fresh, after := reply.reported, backoff }
      let ended (backoff : Option (ℕ × ℤ)) : Record :=
        { reply := reply.afterRetry initialTimeout, rounds := [round backoff], expired := none }
      if reply.result = .ok || !isRetryable reply.result then pure (ended none)
      else
        match left with
        | 0 => pure (ended none)
        | left + 1 => do
          let delay := delayMs attempt reply.context.requestId
          let t' ← now env .retryBackoff
          if deadlineMs ≤ t' + delay then pure (ended (some (t', delay)))
          else do
            Program.emit (.sleep delay)
            tell (env.sleepFor delay)
            let rest ← retryLoopRecorded chain initialTimeout deadlineMs left (attempt + 1)
              reply.reported.context reply.reported.response
            pure (rest.cons (round (some (t', delay))))

/-- `RetryInterceptor::intercept`, with its deadline and its rounds recorded. -/
def retryRecorded (chain : Terminal σ) (context : RequestContext) (response : Response) :
    Prog σ (ℤ × Record) := do
  let initialTimeout := context.request.timeoutMs
  let t ← now env .retryFallback
  let deadlineMs : ℤ := if 0 < context.deadlineMs then context.deadlineMs else t + initialTimeout
  let retryLimit := if context.request.retrySafe then max 0 context.maxRetries else 0
  let record ← retryLoopRecorded env chain initialTimeout deadlineMs retryLimit.toNat 0 context response
  pure (deadlineMs, record)

/-! ### Forgetting the record -/

variable {env} {chain : Terminal σ}

theorem retryLoopRecorded_reply (initialTimeout deadlineMs : ℤ) (left attempt : ℕ)
    (context : RequestContext) (response : Response) :
    Record.reply <$> retryLoopRecorded env chain initialTimeout deadlineMs left attempt context
        response =
      retryLoop env chain initialTimeout deadlineMs left attempt context response := by
  induction left generalizing attempt context response with
  | zero =>
    unfold retryLoop retryLoopRecorded
    dsimp only
    rw [Program.map_bind]
    refine Program.bind_congr fun t => ?_
    rw [apply_ite (Record.reply <$> ·), Program.map_bind]
    refine if_congr Iff.rfl rfl (Program.bind_congr fun reply => ?_)
    rw [apply_ite (Record.reply <$> ·)]
    exact if_congr Iff.rfl rfl rfl
  | succ left ih =>
    unfold retryLoop retryLoopRecorded
    dsimp only
    rw [Program.map_bind]
    refine Program.bind_congr fun t => ?_
    rw [apply_ite (Record.reply <$> ·), Program.map_bind]
    refine if_congr Iff.rfl rfl (Program.bind_congr fun reply => ?_)
    rw [apply_ite (Record.reply <$> ·), Program.map_bind]
    refine if_congr Iff.rfl rfl (Program.bind_congr fun t' => ?_)
    rw [apply_ite (Record.reply <$> ·), Program.map_bind]
    refine if_congr Iff.rfl rfl (Program.bind_congr fun _ => ?_)
    rw [Program.map_bind]
    refine Program.bind_congr fun _ => ?_
    rw [Program.map_bind, ← ih]
    rfl

/-- **The record is one of `RetryInterceptor::intercept`.** -/
theorem retryRecorded_reply (context : RequestContext) (response : Response) :
    (fun run => run.2.reply) <$> retryRecorded env chain context response =
      retry env chain context response := by
  unfold retry retryRecorded
  dsimp only
  rw [Program.map_bind]
  refine Program.bind_congr fun t => ?_
  rw [Program.map_bind, ← retryLoopRecorded_reply]
  rfl

/-! ### The law -/

/-- The clock readings at which budgets were taken. -/
def Record.readings (record : Record) : List ℕ :=
  record.rounds.map Round.startMs ++ record.expired.toList

/-- `deadline - now` is an `int` at each of these readings. -/
def FitInt (deadlineMs : ℤ) (readings : List ℕ) : Prop :=
  ∀ t ∈ readings, -2 ^ 31 ≤ deadlineMs - t ∧ deadlineMs - t < 2 ^ 31

/-- The context that call number `i` finds: the caller's, or what the call before it left. -/
def contextBefore (context : RequestContext) (rounds : List Round) : ℕ → RequestContext
  | 0 => context
  | i + 1 => (rounds[i]?).elim context fun round => round.after.context

/-- What a call is handed, and what is reported after it. -/
structure Round.Handed (chain : Terminal σ) (deadlineMs : ℤ) (before : RequestContext)
    (round : Round) : Prop where
  /-- `timeout_ms` is what is left of the deadline, and this is one attempt more. -/
  context_eq : round.context = before.forAttempt (deadlineMs - round.startMs)
  pos : 0 < deadlineMs - round.startMs
  response_eq : round.response = {}
  called : ∃ w, round.after = (chain round.context round.response w).val.reported
  reported : round.after.response.attempts = round.after.context.attempts

/-- A round after which another call may follow: `attempt` rounds were before it. -/
def Round.Again (deadlineMs : ℤ) (attempt : ℕ) (round : Round) : Prop :=
  round.after.result ≠ .ok ∧ isRetryable round.after.result = true ∧
    ∃ t : ℕ, round.backoff = some (t, delayMs attempt round.after.context.requestId) ∧
      t + delayMs attempt round.after.context.requestId < deadlineMs

/-- What the loop returns is what this call left. -/
structure Round.Returned (round : Round) (reply : Reply) : Prop where
  result_eq : reply.result = round.after.result
  response_eq : reply.response = round.after.response
  attempts_eq : reply.context.attempts = round.after.context.attempts

/-- A run of the loop from a context, with `left` attempts after the first, of which `attempt` were
made before. -/
structure Lawful (chain : Terminal σ) (deadlineMs : ℤ) (left attempt : ℕ) (context : RequestContext)
    (response : Response) (record : Record) : Prop where
  calls_le : record.rounds.length ≤ left + 1
  handed : ∀ i (round : Round), record.rounds[i]? = some round →
    round.Handed chain deadlineMs (contextBefore context record.rounds i)
  again : ∀ i (round : Round), record.rounds[i]? = some round → i + 1 < record.rounds.length →
    round.Again deadlineMs (attempt + i)
  /-- The last call's reply is returned, and no further call was allowed. -/
  returned : record.expired = none → ∃ round ∈ record.rounds.getLast?,
    round.Returned record.reply ∧
      (record.rounds.length = left + 1 ∨ ¬ round.Again deadlineMs (attempt + record.rounds.length - 1))
  /-- The deadline had passed before a call could be made. -/
  expired : ∀ t ∈ record.expired, deadlineMs ≤ t ∧ record.reply.result = .errTimeout ∧
    record.reply.context = contextBefore context record.rounds record.rounds.length ∧
    record.reply.response.attempts =
      (record.rounds.getLast?).elim response.attempts fun round => round.after.response.attempts
  /-- Every round before it allowed another call. -/
  againLast : record.expired ≠ none → ∀ round ∈ record.rounds.getLast?,
    round.Again deadlineMs (attempt + record.rounds.length - 1)

section

variable {deadlineMs initialTimeout : ℤ} {left attempt : ℕ} {context : RequestContext}
  {response : Response}

/-- The deadline had passed. -/
theorem lawful_expired {reply : Reply} {t : ℕ} (ht : deadlineMs ≤ t)
    (hresult : reply.result = .errTimeout) (hcontext : reply.context = context)
    (hattempts : reply.response.attempts = response.attempts) :
    Lawful chain deadlineMs left attempt context response ⟨reply, [], some t⟩ where
  calls_le := Nat.zero_le _
  handed _ _ h := by simp at h
  again _ _ h := by simp at h
  returned h := by cases h
  expired t' ht' := by
    obtain rfl := Option.mem_some_iff.mp ht'
    exact ⟨ht, hresult, hcontext, hattempts⟩
  againLast _ round h := by cases h

/-- The call was the last one. -/
theorem lawful_last {reply : Reply} {round : Round} (hhanded : round.Handed chain deadlineMs context)
    (hreturned : round.Returned reply) (hstop : left = 0 ∨ ¬ round.Again deadlineMs attempt) :
    Lawful chain deadlineMs left attempt context response ⟨reply, [round], none⟩ where
  calls_le := Nat.succ_le_succ (Nat.zero_le left)
  handed i r h := by
    obtain ⟨rfl, rfl⟩ : i = 0 ∧ round = r := by simpa [List.getElem?_singleton] using h
    exact hhanded
  again i r h hlt := by
    simp at hlt
  returned _ := by
    refine ⟨round, rfl, hreturned, ?_⟩
    rcases hstop with rfl | hstop
    · exact .inl rfl
    · exact .inr hstop
  expired t ht := by cases ht
  againLast h := absurd rfl h

theorem contextBefore_cons (context : RequestContext) (round : Round) (rounds : List Round) {i : ℕ}
    (hi : i ≤ rounds.length) : contextBefore context (round :: rounds) (i + 1) =
      contextBefore round.after.context rounds i := by
  cases i with
  | zero => rfl
  | succ i =>
    rw [contextBefore, contextBefore, List.getElem?_cons_succ, List.getElem?_eq_getElem hi]
    rfl

/-- The call was followed by others. -/
theorem lawful_cons {round : Round} {rest : Record} (hhanded : round.Handed chain deadlineMs context)
    (hagain : round.Again deadlineMs attempt)
    (hrest : Lawful chain deadlineMs left (attempt + 1) round.after.context round.after.response rest) :
    Lawful chain deadlineMs (left + 1) attempt context response (rest.cons round) where
  -- the calls of the rest are one further on in the whole record
  calls_le := Nat.succ_le_succ hrest.calls_le
  handed i r h := by
    cases i with
    | zero =>
      obtain rfl : round = r := Option.some.inj h
      exact hhanded
    | succ i =>
      have hi : i < rest.rounds.length :=
        Nat.lt_of_succ_lt_succ (List.getElem?_eq_some_iff.mp h).1
      rw [Record.cons, contextBefore_cons _ _ _ hi.le]
      exact hrest.handed i r h
  again i r h hlt := by
    cases i with
    | zero =>
      obtain rfl : round = r := Option.some.inj h
      exact hagain
    | succ i =>
      have hlater := hrest.again i r h (Nat.lt_of_succ_lt_succ hlt)
      rwa [Nat.add_assoc, Nat.add_comm 1] at hlater
  returned h := by
    obtain ⟨last, hlast, hreturned, hstop⟩ := hrest.returned h
    refine ⟨last, ?_, hreturned, ?_⟩
    · rw [Record.cons, List.getLast?_cons, Option.mem_def.mp hlast]
      rfl
    · refine hstop.imp (congrArg (· + 1)) fun hnot => ?_
      rwa [Nat.add_right_comm] at hnot
  expired t ht := by
    obtain ⟨hle, hresult, hcontext, hattempts⟩ := hrest.expired t ht
    refine ⟨hle, hresult, ?_, ?_⟩
    · rw [Record.cons, List.length_cons, contextBefore_cons _ _ _ le_rfl]
      exact hcontext
    · rw [Record.cons, List.getLast?_cons]
      rw [hattempts]
      cases rest.rounds.getLast? <;> rfl
  againLast h last hlast := by
    rw [Record.cons, List.getLast?_cons, Option.mem_some_iff] at hlast
    cases hrounds : rest.rounds.getLast? with
    | none =>
      obtain rfl : round = last := by rwa [hrounds] at hlast
      have hnil : rest.rounds = [] := List.getLast?_eq_none_iff.mp hrounds
      rwa [Record.cons, hnil]
    | some r =>
      obtain rfl : r = last := by rwa [hrounds] at hlast
      have hlater := hrest.againLast h r hrounds
      rwa [Nat.add_right_comm] at hlater

theorem toInt_of_fit {x : ℤ} (hlow : -2 ^ 31 ≤ x) (hhigh : x < 2 ^ 31) : toInt x = x :=
  Int.bmod_eq_of_le (by omega) (by omega)

/-- A call of a round whose budget fits an `int`. -/
theorem handed_of_fit {t : ℕ} {reply : Reply} {backoff : Option (ℕ × ℤ)} (hfit : FitInt deadlineMs [t])
    (hpos : ¬ toInt (deadlineMs - t) ≤ 0)
    (hcalled : ∃ w, reply = (chain (context.forAttempt (toInt (deadlineMs - t))) {} w).val) :
    (⟨t, context.forAttempt (toInt (deadlineMs - t)), {}, reply.reported, backoff⟩ : Round).Handed
      chain deadlineMs context := by
  obtain ⟨hlow, hhigh⟩ := hfit t (List.mem_singleton_self t)
  obtain ⟨w, rfl⟩ := hcalled
  rw [toInt_of_fit hlow hhigh] at hpos ⊢
  exact ⟨rfl, not_le.mp hpos, rfl, ⟨w, rfl⟩, rfl⟩

/-- **Every run of the loop obeys the law.** -/
theorem lawful_retryLoopRecorded (context : RequestContext) (response : Response) :
    Program.Keeps (fun _ => True) (fun _ => True)
      (retryLoopRecorded env chain initialTimeout deadlineMs left attempt context response)
      fun record => FitInt deadlineMs record.readings →
        Lawful chain deadlineMs left attempt context response record := by
  -- readings of the clock and calls of the chain may do anything
  have hread : ∀ site, Program.Keeps (fun _ => True) (fun _ => True) (now env site) fun _ => True :=
    fun site w _ => ⟨trivial, fun _ _ => trivial, trivial⟩
  have hcall : ∀ context response, Program.Keeps (fun _ => True) (fun _ => True)
      (chain context response) fun reply => ∃ w, reply = (chain context response w).val :=
    fun context response w _ => ⟨trivial, fun _ _ => trivial, w, rfl⟩
  -- a round that is out of time makes no call
  have hexpired : ∀ {left attempt : ℕ} {context response} (t : ℕ) (reply : Reply),
      toInt (deadlineMs - t) ≤ 0 → reply.result = .errTimeout → reply.context = context →
      reply.response.attempts = response.attempts → FitInt deadlineMs [t] →
      Lawful chain deadlineMs left attempt context response ⟨reply, [], some t⟩ := by
    intro left attempt context response t reply ht hresult hcontext hattempts hfit
    obtain ⟨hlow, hhigh⟩ := hfit t (List.mem_singleton_self t)
    rw [toInt_of_fit hlow hhigh] at ht
    exact lawful_expired (by omega) hresult hcontext hattempts
  -- the induction is on the attempts that are left
  induction left generalizing attempt context response with
  | zero =>
    unfold retryLoopRecorded
    dsimp only
    refine Program.keeps_bind (hread _) fun t _ => ?_
    refine Program.keeps_ite (fun ht => Program.keeps_pure (hexpired t _ ht rfl rfl rfl)) fun hpos => ?_
    refine Program.keeps_bind (hcall _ _) fun reply hreply => ?_
    refine Program.keeps_ite (fun _ => ?_) fun _ => ?_
    all_goals exact Program.keeps_pure fun hfit =>
      lawful_last (handed_of_fit hfit hpos hreply) ⟨rfl, rfl, rfl⟩ (.inl rfl)
  | succ left ih =>
    unfold retryLoopRecorded
    dsimp only
    refine Program.keeps_bind (hread _) fun t _ => ?_
    refine Program.keeps_ite (fun ht => Program.keeps_pure (hexpired t _ ht rfl rfl rfl)) fun hpos => ?_
    refine Program.keeps_bind (hcall _ _) fun reply hreply => ?_
    refine Program.keeps_ite (fun hdone => Program.keeps_pure fun hfit => ?_) fun hgo => ?_
    · -- the result is final
      refine lawful_last (handed_of_fit hfit hpos hreply) ⟨rfl, rfl, rfl⟩ (.inr ?_)
      rintro ⟨hok, hretry, -⟩
      simp only [Reply.reported] at hok hretry
      simp [hok, hretry] at hdone
    refine Program.keeps_bind (hread _) fun t' _ => ?_
    refine Program.keeps_ite (fun hlate => Program.keeps_pure fun hfit => ?_) fun hlate => ?_
    · -- no time is left for the backoff
      refine lawful_last (handed_of_fit hfit hpos hreply) ⟨rfl, rfl, rfl⟩ (.inr ?_)
      rintro ⟨-, -, t'', heq, hlt⟩
      obtain ⟨rfl, -⟩ := Prod.mk.inj (Option.some.inj heq)
      exact absurd hlate (not_le.mpr hlt)
    refine Program.keeps_bind (Q := fun _ => True) (Program.keeps_emit trivial) fun _ _ => ?_
    refine Program.keeps_bind (Q := fun _ => True) ?_ fun _ _ => ?_
    · exact fun w _ => ⟨trivial, fun _ _ => trivial, trivial⟩
    refine Program.keeps_bind (ih _ _) fun rest hrest => Program.keeps_pure fun hfit => ?_
    rw [Bool.or_eq_true, not_or] at hgo
    have hok : reply.result ≠ .ok := fun h => hgo.1 (decide_eq_true h)
    have hretry : isRetryable reply.result = true := by simpa using hgo.2
    have hround : FitInt deadlineMs [t] := fun s hs => hfit s (List.mem_append_left _ (by
      rw [List.mem_singleton.mp hs]
      exact List.mem_cons_self))
    exact lawful_cons (handed_of_fit hround hpos hreply) ⟨hok, hretry, t', rfl, not_le.mp hlate⟩
      (hrest fun s hs => hfit s (List.mem_cons_of_mem t hs))

/-! ### Attempts -/

/-- No call of the run touches `context.attempts` itself. -/
def Record.LeavesAttempts (record : Record) : Prop :=
  ∀ round ∈ record.rounds, round.after.context.attempts = round.context.attempts

/-- `context.attempts` grows by the number of calls, and `response.attempts` is equal to it after
each. -/
structure Counts (context : RequestContext) (record : Record) : Prop where
  after : ∀ i (round : Round), record.rounds[i]? = some round →
    round.after.context.attempts = context.attempts + (i + 1 : ℕ) ∧
      round.after.response.attempts = context.attempts + (i + 1 : ℕ)
  reply : record.reply.context.attempts = context.attempts + record.rounds.length
  response : record.rounds ≠ [] → record.reply.response.attempts = record.reply.context.attempts

variable {record : Record}

theorem Lawful.contextBefore_attempts (h : Lawful chain deadlineMs left attempt context response record)
    (hleaves : record.LeavesAttempts) {i : ℕ} (hi : i ≤ record.rounds.length) :
    (contextBefore context record.rounds i).attempts = context.attempts + i := by
  induction i with
  | zero => exact (add_zero _).symm
  | succ i ih =>
    have hround := List.getElem?_eq_getElem hi
    have hcontext := (h.handed i _ hround).context_eq
    rw [contextBefore, hround, Option.elim_some, hleaves _ (List.getElem_mem hi), hcontext,
      RequestContext.forAttempt, ih (Nat.le_of_succ_le hi)]
    push_cast
    omega

theorem Lawful.counts (h : Lawful chain deadlineMs left attempt context response record)
    (hleaves : record.LeavesAttempts) : Counts context record := by
  -- each call counts one attempt more than the call before
  have hafter : ∀ i (round : Round), record.rounds[i]? = some round →
      round.after.context.attempts = context.attempts + (i + 1 : ℕ) := by
    intro i round hround
    have hi := (List.getElem?_eq_some_iff.mp hround).1
    have hnext := h.contextBefore_attempts hleaves (i := i + 1) hi
    rwa [contextBefore, hround] at hnext
  have hlast : ∀ round ∈ record.rounds.getLast?,
      round.after.context.attempts = context.attempts + record.rounds.length ∧
        round.after.response.attempts = round.after.context.attempts := by
    intro round hround
    have hne : record.rounds ≠ [] := by
      rintro hnil
      rw [hnil] at hround
      cases hround
    have hpos := List.length_pos_iff.mpr hne
    rw [Option.mem_def, List.getLast?_eq_getElem?] at hround
    have heq := hafter _ round hround
    rw [Nat.sub_add_cancel hpos] at heq
    exact ⟨heq, (h.handed _ round hround).reported⟩
  refine ⟨fun i round hround => ⟨hafter i round hround, ?_⟩, ?_, fun hne => ?_⟩
  · rw [(h.handed i round hround).reported, hafter i round hround]
  · cases hexpired : record.expired with
    | none =>
      obtain ⟨round, hround, hreturned, -⟩ := h.returned hexpired
      rw [hreturned.attempts_eq, (hlast round hround).1]
    | some t =>
      obtain ⟨-, -, hcontext, -⟩ := h.expired t hexpired
      rw [hcontext, h.contextBefore_attempts hleaves le_rfl]
  · cases hexpired : record.expired with
    | none =>
      obtain ⟨round, hround, hreturned, -⟩ := h.returned hexpired
      rw [hreturned.attempts_eq, hreturned.response_eq, (hlast round hround).2]
    | some t =>
      obtain ⟨-, -, hcontext, hattempts⟩ := h.expired t hexpired
      have hround := List.getLast?_eq_getLast_of_ne_nil hne
      rw [hcontext, h.contextBefore_attempts hleaves le_rfl, hattempts, hround, Option.elim_some,
        (hlast _ hround).2, (hlast _ hround).1]

end

/-! ### `RetryInterceptor::intercept` -/

/-- `retry_limit`. -/
def retryLimit (context : RequestContext) : ℕ :=
  (if context.request.retrySafe then max 0 context.maxRetries else 0).toNat

/-- `deadline_ms`, from the reading of the clock at the start. -/
def deadlineOf (context : RequestContext) (t : ℕ) : ℤ :=
  if 0 < context.deadlineMs then context.deadlineMs else t + context.request.timeoutMs

/-- **The law of the retry loop**, for every terminal, every clock and every outside. -/
theorem retry_law (context : RequestContext) (response : Response) (w : World σ)
    (hfit : FitInt (retryRecorded env chain context response w).val.1
      (retryRecorded env chain context response w).val.2.readings) :
    let run := retryRecorded env chain context response w
    let record := run.val.2
    retry env chain context response w = ⟨record.reply, run.post, run.events⟩ ∧
      run.val.1 = deadlineOf context (env.monotonicMs w.out).1 ∧
      Lawful chain run.val.1 (retryLimit context) 0 context response record ∧
      (record.LeavesAttempts → Counts context record) := by
  intro run record
  have hlawful : Lawful chain run.val.1 (retryLimit context) 0 context response record :=
    (lawful_retryLoopRecorded context response
      { w with out := (env.monotonicMs w.out).2 } trivial).2.2 hfit
  refine ⟨?_, rfl, hlawful, hlawful.counts⟩
  rw [← retryRecorded_reply, Program.map_apply]

/-- A terminal that never connects. -/
def unconnected : Terminal ℕ := fun context response =>
  pure { result := .errConnect, context, response }

/-- A request with two retries. -/
def retriedContext : RequestContext :=
  { request := ProtocolSelector.refusedGet, maxRetries := 2, deadlineMs := 400 }

/-- Its run: the clock stands still but for the backoffs. -/
def retriedRun : Outcome Event (World ℕ) (ℤ × Record) :=
  retryRecorded ProtocolSelector.refusing unconnected retriedContext {} ⟨1, ∅⟩

theorem retry_law_retried :
    retry ProtocolSelector.refusing unconnected retriedContext {} ⟨1, ∅⟩ =
        ⟨retriedRun.val.2.reply, retriedRun.post, retriedRun.events⟩ ∧
      retriedRun.val.1 = deadlineOf retriedContext 1 ∧
      Lawful unconnected retriedRun.val.1 (retryLimit retriedContext) 0 retriedContext {}
        retriedRun.val.2 ∧
      (retriedRun.val.2.LeavesAttempts → Counts retriedContext retriedRun.val.2) := by
  have hfit : FitInt retriedRun.val.1 retriedRun.val.2.readings := by
    unfold FitInt
    decide +kernel
  exact retry_law retriedContext {} ⟨1, ∅⟩ hfit

end Orchestrator

/-! ### The client's transport -/

/-- The transport leaves `context.attempts` to the loop. -/
theorem Client.executeTransport_attempts {σ : Type} (env : Env σ) (config : ClientConfig)
    (context : RequestContext) (response : Response) (w : World σ) :
    (Client.executeTransport env config context response w).val.context.attempts =
      context.attempts := by
  have hkeeps : Program.Keeps (fun _ => True) (fun _ => True)
      (Client.executeTransport env config context response)
      fun reply => reply.context.attempts = context.attempts := by
    have hany : ∀ {α : Type} (f : Prog σ α), Program.Keeps (fun _ => True) (fun _ => True) f
        fun _ => True := fun f w _ => ⟨trivial, fun _ _ => trivial, trivial⟩
    unfold Client.executeTransport
    dsimp only
    refine Program.keeps_bind (hany _) fun _ _ => ?_
    refine Program.keeps_bind (hany _) fun resolution _ => ?_
    refine Program.keeps_bind (hany _) fun _ _ => ?_
    refine Program.keeps_ite (fun _ => ?_) fun _ => ?_
    · refine Program.keeps_bind (hany _) fun _ _ => Program.keeps_bind (hany _) fun _ _ => ?_
      exact Program.keeps_pure rfl
    · exact Program.keeps_bind (hany _) fun _ _ => Program.keeps_pure rfl
  exact (hkeeps w trivial).2.2

namespace Orchestrator

/-- So the client's attempts are counted. -/
theorem Lawful.counts_executeTransport {σ : Type} {env : Env σ} {config : ClientConfig}
    {deadlineMs : ℤ} {left attempt : ℕ} {context : RequestContext} {response : Response}
    {record : Record} (h : Lawful (Client.executeTransport env config) deadlineMs left attempt context
      response record) : Counts context record := by
  refine h.counts fun round hmem => ?_
  obtain ⟨i, hround⟩ := List.mem_iff_getElem?.mp hmem
  obtain ⟨w, hafter⟩ := (h.handed i round hround).called
  rw [hafter]
  exact Client.executeTransport_attempts env config _ _ w

end Orchestrator

end AsterNet
