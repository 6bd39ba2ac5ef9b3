import AsterNet.Sdt.Traceroute
import Mathlib.Tactic.Common

/-!
# Which probe an answer is credited to

`AttributesReplies`: the address, the round trip times and the verdict of a hop come from errors that its
own probes caused.  The wait takes the first Time Exceeded or Destination Unreachable of the error queue,
whichever probe it quotes, so this is so exactly when no error of another probe comes first while a probe
waits (`attributesReplies_iff`).  `not_attributesReplies_late` is the router that answers the first probe
after its timeout.
-/

namespace AsterNet

namespace Traceroute

open ByteString

/-! ### The condition -/

/-- What the hop records is from errors that probes with its TTL caused, each timed from the sending of the
probe that caused it, and no probe is credited with the error of another one. -/
structure Attributed (env : Env) (hop : TracerouteHop) : Prop where
  addr : hop.addr ≠ [] → ∃ a ∈ hop.answers, a.error.cause.ttl = hop.ttl ∧ hop.addr = a.error.offender
  rtt : ∀ r ∈ hop.rttMs, r ≠ -1 → ∃ a ∈ hop.answers, a.error.cause.ttl = hop.ttl ∧
    r = ((env.probe a.probe).readTime - (env.probe a.error.cause).sendTime) * 1000
  reached : hop.reached = true → ∃ a ∈ hop.answers, a.error.cause.ttl = hop.ttl ∧
    a.error.isReached = true
  own : ∀ a ∈ hop.answers, a.error.cause = a.probe

/-- Replies are attributed to the right hop. -/
def AttributesReplies (config : TracerouteConfig) (env : Env) (host : Bytes) (port : ℕ) : Prop :=
  (∀ hop ∈ (traceRouteImpl config env host port).hops, Attributed env hop) ∧
    ((traceRouteImpl config env host port).status = .reached →
      ∃ hop ∈ (traceRouteImpl config env host port).hops, hop.reached = true)

/-- A turn that leaves the probe waiting. -/
def Turn.GoesOn (deadline : ℚ) (turn : Turn) : Prop :=
  turn.now < deadline ∧ (turn.event = .again ∨ turn.event = .entry none ∨
    ∃ ee : ExtendedErr, turn.event = .entry (some ee) ∧ ee.isAnswer = false)

/-- A turn that takes an error as the answer. -/
def Turn.Takes (deadline : ℚ) (turn : Turn) (ee : ExtendedErr) : Prop :=
  turn.now < deadline ∧ turn.event = .entry (some ee) ∧ ee.isAnswer = true

/-- The error is the first answer in the queue while the probe waits. -/
def ComesFirst (config : TracerouteConfig) (env : Env) (id : ProbeId) (ee : ExtendedErr) : Prop :=
  (env.probe id).sent = .sent ∧ ∃ earlier turn later,
    (env.probe id).turns = earlier ++ turn :: later ∧
    (∀ t ∈ earlier, t.GoesOn (deadline config (env.probe id))) ∧
    turn.Takes (deadline config (env.probe id)) ee

/-- The probe is the last one of the trace. -/
def Ends (config : TracerouteConfig) (env : Env) (id : ProbeId) : Prop :=
  (env.probe id).sent = .noRoute ∨ ∃ ee, ComesFirst config env id ee ∧ ee.isDone = true

/-- The trace gets to the probe. -/
structure Made (config : TracerouteConfig) (env : Env) (id : ProbeId) : Prop where
  resolved : env.resolved ≠ none
  socket : env.socket = true
  recvErr : env.recvErr = true
  connected : env.connected = .connected
  one_le : 1 ≤ id.ttl
  ttl_le : id.ttl ≤ config.maxHops.toNat
  probe_lt : id.probe < config.probesPerHop.toNat
  ttlSet : ∀ ttl, 1 ≤ ttl → ttl ≤ id.ttl → env.ttlSet ttl = true
  hops : ∀ ttl, 1 ≤ ttl → ttl < id.ttl → ∀ i < config.probesPerHop.toNat, ¬ Ends config env ⟨ttl, i⟩
  probes : ∀ i < id.probe, ¬ Ends config env ⟨id.ttl, i⟩

/-- While a probe waits, an answer that another probe caused does not come first. -/
def NoLateReply (config : TracerouteConfig) (env : Env) : Prop :=
  ∀ id ee, Made config env id → ComesFirst config env id ee → ee.cause = id

/-! ### One probe -/

theorem remaining_iff {deadline now : ℚ} : ¬ deadline - now ≤ 0 ↔ now < deadline := by
  rw [sub_nonpos, not_le]

/-- The wait takes the first answer. -/
theorem waitReply_eq_some_iff {deadline : ℚ} {turns : List Turn} {ee : ExtendedErr} :
    waitReply deadline turns = some ee ↔ ∃ earlier turn later, turns = earlier ++ turn :: later ∧
      (∀ t ∈ earlier, t.GoesOn deadline) ∧ turn.Takes deadline ee := by
  constructor
  · intro h
    fun_induction waitReply deadline turns with
    | case1 => cases h
    | case2 turn turns hlate => cases h
    | case3 turn turns hlate hevent => cases h
    | case4 turn turns hlate hevent => cases h
    | case5 turn turns hlate hevent ih =>
      obtain ⟨earlier, last, later, rfl, hearlier, hlast⟩ := ih h
      refine ⟨turn :: earlier, last, later, rfl, ?_, hlast⟩
      exact List.forall_mem_cons.mpr ⟨⟨remaining_iff.mp hlate, .inl hevent⟩, hearlier⟩
    | case6 turn turns hlate hevent ih =>
      obtain ⟨earlier, last, later, rfl, hearlier, hlast⟩ := ih h
      refine ⟨turn :: earlier, last, later, rfl, ?_, hlast⟩
      exact List.forall_mem_cons.mpr ⟨⟨remaining_iff.mp hlate, .inr (.inl hevent)⟩, hearlier⟩
    | case7 turn turns hlate other hevent hanswer =>
      obtain rfl := Option.some.inj h
      exact ⟨[], turn, turns, rfl, by simp, remaining_iff.mp hlate, hevent, hanswer⟩
    | case8 turn turns hlate other hevent hanswer ih =>
      obtain ⟨earlier, last, later, rfl, hearlier, hlast⟩ := ih h
      refine ⟨turn :: earlier, last, later, rfl, ?_, hlast⟩
      refine List.forall_mem_cons.mpr ⟨⟨remaining_iff.mp hlate, .inr (.inr ⟨other, hevent, ?_⟩)⟩, hearlier⟩
      exact Bool.eq_false_iff.mpr hanswer
  · rintro ⟨earlier, turn, later, rfl, hearlier, hnow, hevent, hanswer⟩
    induction earlier with
    | nil => simp [waitReply, hevent, hanswer, remaining_iff.mpr hnow]
    | cons t earlier ih =>
      obtain ⟨⟨ht, hgoes⟩, hearlier⟩ := List.forall_mem_cons.mp hearlier
      rw [List.cons_append, waitReply, if_neg (remaining_iff.mpr ht)]
      rcases hgoes with hgoes | hgoes | ⟨other, hgoes, hother⟩
      · rw [hgoes]
        exact ih hearlier
      · rw [hgoes]
        exact ih hearlier
      · rw [hgoes]
        dsimp only
        rw [hother]
        exact ih hearlier

section Probes

variable {config : TracerouteConfig} {env : Env} {st : State} {probe : ℕ}

/-- What a hop takes as an answer to a probe is what comes first in its wait. -/
theorem comesFirst_iff {id : ProbeId} {ee : ExtendedErr} : ComesFirst config env id ee ↔
    (env.probe id).sent = .sent ∧
      waitReply (deadline config (env.probe id)) (env.probe id).turns = some ee := by
  rw [waitReply_eq_some_iff]
  rfl

/-- The ways a probe goes. -/
theorem probeOnce_cases (config : TracerouteConfig) (env : Env) (st : State) (probe : ℕ) :
    (∃ ee, ComesFirst config env ⟨st.hop.ttl, probe⟩ ee ∧
      probeOnce config env probe st = { st with
        hop := reply st.hop ⟨st.hop.ttl, probe⟩ (env.probe ⟨st.hop.ttl, probe⟩) ee
        reached := st.reached || ee.isReached
        done := st.done || ee.isDone }) ∨
    (¬ ∃ ee, ComesFirst config env ⟨st.hop.ttl, probe⟩ ee) ∧
      probeOnce config env probe st = { st with
        hop := lose st.hop
        noRoute := st.noRoute || decide ((env.probe ⟨st.hop.ttl, probe⟩).sent = .noRoute) } := by
  simp only [comesFirst_iff]
  unfold probeOnce
  dsimp only
  cases hsent : (env.probe ⟨st.hop.ttl, probe⟩).sent with
  | noRoute => exact .inr ⟨by simp, by simp⟩
  | failed => exact .inr ⟨by simp, by simp⟩
  | sent =>
    cases hwait : waitReply (deadline config (env.probe ⟨st.hop.ttl, probe⟩))
      (env.probe ⟨st.hop.ttl, probe⟩).turns with
    | none => exact .inr ⟨by simp, by simp⟩
    | some ee => exact .inl ⟨ee, ⟨rfl, rfl⟩, rfl⟩

theorem ttl_probeOnce : (probeOnce config env probe st).hop.ttl = st.hop.ttl := by
  obtain ⟨ee, -, h⟩ | ⟨-, h⟩ := probeOnce_cases config env st probe
  · rw [h]
    rfl
  · rw [h]
    rfl

theorem mem_answers_probeOnce {a : Credit} : a ∈ (probeOnce config env probe st).hop.answers ↔
    a ∈ st.hop.answers ∨ a.probe = ⟨st.hop.ttl, probe⟩ ∧ ComesFirst config env a.probe a.error := by
  obtain ⟨ee, hfirst, h⟩ | ⟨hnone, h⟩ := probeOnce_cases config env st probe
  · rw [h]
    simp only [reply, List.mem_append, List.mem_singleton]
    refine or_congr_right ⟨?_, ?_⟩
    · rintro rfl
      exact ⟨rfl, hfirst⟩
    · rintro ⟨hprobe, ha⟩
      have hee : a.error = ee := by
        rw [hprobe] at ha
        exact Option.some.inj ((comesFirst_iff.mp ha).2.symm.trans (comesFirst_iff.mp hfirst).2)
      rw [← hprobe, ← hee]
  · rw [h]
    simp only [lose]
    refine (or_iff_left ?_).symm
    rintro ⟨hprobe, ha⟩
    rw [hprobe] at ha
    exact hnone ⟨a.error, ha⟩

/-- The loops stop after the probe that ends the trace. -/
theorem stopped_probeOnce_iff (hst : st.stopped = false) :
    (probeOnce config env probe st).stopped = true ↔ Ends config env ⟨st.hop.ttl, probe⟩ := by
  simp only [State.stopped, Bool.or_eq_false_iff] at hst
  obtain ⟨⟨hreached, hdone⟩, hroute⟩ := hst
  obtain ⟨ee, hfirst, h⟩ | ⟨hnone, h⟩ := probeOnce_cases config env st probe
  · have hsent := (comesFirst_iff.mp hfirst).1
    have hends : Ends config env ⟨st.hop.ttl, probe⟩ ↔ ee.isDone = true := by
      refine ⟨?_, fun hee => .inr ⟨ee, hfirst, hee⟩⟩
      rintro (hno | ⟨other, hother, hdone⟩)
      · rw [hsent] at hno
        cases hno
      · rwa [Option.some.inj ((comesFirst_iff.mp hfirst).2.symm.trans (comesFirst_iff.mp hother).2)]
    rw [h, hends]
    simp only [State.stopped, hreached, hdone, hroute, Bool.false_or, Bool.or_false, Bool.or_eq_true,
      ExtendedErr.isReached, Bool.and_eq_true]
    exact ⟨fun h => h.elim And.left id, .inr⟩
  · have hends : Ends config env ⟨st.hop.ttl, probe⟩ ↔ (env.probe ⟨st.hop.ttl, probe⟩).sent = .noRoute :=
      ⟨fun h => h.resolve_right fun ⟨ee, hee, _⟩ => hnone ⟨ee, hee⟩, .inl⟩
    rw [h, hends]
    simp [State.stopped, hreached, hdone, hroute]

/-! ### The probes of a hop -/

theorem probeLoop_of_stopped {n : ℕ} (h : st.stopped = true) : probeLoop config env n probe st = st := by
  cases n with
  | zero => rfl
  | succ n => rw [probeLoop, if_pos h]

/-- The loop stops at the first probe that ends the trace. -/
theorem stopped_probeLoop_iff {n : ℕ} (hst : st.stopped = false) :
    (probeLoop config env n probe st).stopped = true ↔
      ∃ i, probe ≤ i ∧ i < probe + n ∧ Ends config env ⟨st.hop.ttl, i⟩ := by
  induction n generalizing probe st with
  | zero =>
    rw [probeLoop, hst]
    simp only [Bool.false_eq_true, false_iff]
    rintro ⟨i, hle, hlt, -⟩
    omega
  | succ n ih =>
    rw [probeLoop, if_neg (by simp [hst])]
    cases hstop : (probeOnce config env probe st).stopped with
    | true =>
      rw [probeLoop_of_stopped hstop, hstop]
      exact iff_of_true rfl ⟨probe, by omega, by omega, (stopped_probeOnce_iff hst).mp hstop⟩
    | false =>
      have hends : ¬ Ends config env ⟨st.hop.ttl, probe⟩ := by
        rw [← stopped_probeOnce_iff hst, hstop]
        simp
      rw [ih hstop, ttl_probeOnce]
      constructor
      · rintro ⟨i, hle, hlt, hi⟩
        exact ⟨i, by omega, by omega, hi⟩
      · rintro ⟨i, hle, hlt, hi⟩
        have hne : i ≠ probe := by
          rintro rfl
          exact hends hi
        exact ⟨i, by omega, by omega, hi⟩

/-- **The answers of a hop** are what comes first for its probes, up to the one that ends the trace. -/
theorem mem_answers_probeLoop {n : ℕ} {a : Credit} (hst : st.stopped = false) :
    a ∈ (probeLoop config env n probe st).hop.answers ↔ a ∈ st.hop.answers ∨
      ∃ i, probe ≤ i ∧ i < probe + n ∧ (∀ j, probe ≤ j → j < i → ¬ Ends config env ⟨st.hop.ttl, j⟩) ∧
        a.probe = ⟨st.hop.ttl, i⟩ ∧ ComesFirst config env a.probe a.error := by
  -- the induction is on the probes that are left
  induction n generalizing probe st with
  | zero =>
    rw [probeLoop]
    refine (or_iff_left ?_).symm
    rintro ⟨i, hle, hlt, -⟩
    omega
  | succ n ih =>
    rw [probeLoop, if_neg (by simp [hst])]
    cases hstop : (probeOnce config env probe st).stopped with
    | true =>
      -- then this probe is the last one
      have hends := (stopped_probeOnce_iff hst).mp hstop
      rw [probeLoop_of_stopped hstop, mem_answers_probeOnce]
      refine or_congr_right ⟨?_, ?_⟩
      · intro h
        exact ⟨probe, by omega, by omega, fun j hle hlt => by omega, h⟩
      · rintro ⟨i, hle, hlt, hbefore, h⟩
        have hi : i = probe := by
          by_contra hne
          exact hbefore probe (by omega) (by omega) hends
        rwa [hi] at h
    | false =>
      have hends : ¬ Ends config env ⟨st.hop.ttl, probe⟩ := by
        rw [← stopped_probeOnce_iff hst, hstop]
        simp
      rw [ih hstop, mem_answers_probeOnce, ttl_probeOnce, or_assoc]
      refine or_congr_right ⟨?_, ?_⟩
      · rintro (h | ⟨i, hle, hlt, hbefore, h⟩)
        · exact ⟨probe, by omega, by omega, fun j hle hlt => by omega, h⟩
        · refine ⟨i, by omega, by omega, fun j hle hlt => ?_, h⟩
          by_cases hj : j = probe
          · rwa [hj]
          · exact hbefore j (by omega) hlt
      · rintro ⟨i, hle, hlt, hbefore, h⟩
        by_cases hi : i = probe
        · rw [hi] at h
          exact .inl h
        · exact .inr ⟨i, by omega, by omega, fun j hle hlt => hbefore j (by omega) hlt, h⟩

/-! ### What a hop records -/

/-- The fields of a hop are those of its answers. -/
structure Recorded (env : Env) (hop : TracerouteHop) : Prop where
  addr : hop.addr ≠ [] → ∃ a ∈ hop.answers, hop.addr = a.error.offender
  rtt : ∀ r ∈ hop.rttMs, r ≠ -1 → ∃ a ∈ hop.answers,
    r = ((env.probe a.probe).readTime - (env.probe a.probe).sendTime) * 1000
  reached : hop.reached = true → ∃ a ∈ hop.answers, a.error.isReached = true
  ttl : ∀ a ∈ hop.answers, a.probe.ttl = hop.ttl

theorem recorded_start {ttl : ℕ} : Recorded env { ttl := ttl } := by
  constructor <;> simp

theorem recorded_lose {hop : TracerouteHop} (h : Recorded env hop) : Recorded env (lose hop) where
  addr := h.addr
  rtt r hr hne := by
    rcases List.mem_append.mp hr with hr | hr
    · exact h.rtt r hr hne
    · exact absurd (List.mem_singleton.mp hr) hne
  reached := h.reached
  ttl := h.ttl

theorem recorded_reply {hop : TracerouteHop} {i : ℕ} {ee : ExtendedErr} (h : Recorded env hop) :
    Recorded env (reply hop ⟨hop.ttl, i⟩ (env.probe ⟨hop.ttl, i⟩) ee) := by
  have hold : ∀ a ∈ hop.answers, a ∈ (reply hop ⟨hop.ttl, i⟩ (env.probe ⟨hop.ttl, i⟩) ee).answers :=
    fun a ha => List.mem_append_left _ ha
  have hnew : ⟨⟨hop.ttl, i⟩, ee⟩ ∈ (reply hop ⟨hop.ttl, i⟩ (env.probe ⟨hop.ttl, i⟩) ee).answers :=
    List.mem_append_right _ (List.mem_singleton_self _)
  constructor
  · intro hne
    by_cases haddr : hop.addr = []
    · exact ⟨_, hnew, by simp [reply, haddr]⟩
    · obtain ⟨a, ha, heq⟩ := h.addr haddr
      exact ⟨a, hold a ha, by simp [reply, haddr, ← heq]⟩
  · intro r hr hne
    rcases List.mem_append.mp hr with hr | hr
    · obtain ⟨a, ha, heq⟩ := h.rtt r hr hne
      exact ⟨a, hold a ha, heq⟩
    · exact ⟨_, hnew, List.mem_singleton.mp hr⟩
  · intro hreached
    rcases (Bool.or_eq_true _ _).mp hreached with hreached | hreached
    · obtain ⟨a, ha, heq⟩ := h.reached hreached
      exact ⟨a, hold a ha, heq⟩
    · exact ⟨_, hnew, hreached⟩
  · intro a ha
    rcases List.mem_append.mp ha with ha | ha
    · exact h.ttl a ha
    · rw [List.mem_singleton.mp ha]
      rfl

theorem recorded_probeOnce (h : Recorded env st.hop) :
    Recorded env (probeOnce config env probe st).hop := by
  obtain ⟨ee, -, heq⟩ | ⟨-, heq⟩ := probeOnce_cases config env st probe
  · rw [heq]
    exact recorded_reply h
  · rw [heq]
    exact recorded_lose h

theorem recorded_probeLoop {n : ℕ} (h : Recorded env st.hop) :
    Recorded env (probeLoop config env n probe st).hop := by
  induction n generalizing probe st with
  | zero => exact h
  | succ n ih =>
    rw [probeLoop]
    split_ifs
    · exact h
    · exact ih (recorded_probeOnce h)

/-- The loops know that the destination is reached from the hop they are at. -/
theorem reached_probeOnce (h : st.reached = true → st.hop.reached = true) :
    (probeOnce config env probe st).reached = true →
      (probeOnce config env probe st).hop.reached = true := by
  obtain ⟨ee, -, heq⟩ | ⟨-, heq⟩ := probeOnce_cases config env st probe
  · rw [heq]
    simp only [reply, Bool.or_eq_true]
    exact Or.imp_left h
  · rw [heq]
    exact h

theorem reached_probeLoop {n : ℕ} (h : st.reached = true → st.hop.reached = true) :
    (probeLoop config env n probe st).reached = true →
      (probeLoop config env n probe st).hop.reached = true := by
  induction n generalizing probe st with
  | zero => exact h
  | succ n ih =>
    rw [probeLoop]
    split_ifs
    · exact h
    · exact ih (reached_probeOnce h)

end Probes

/-! ### The hops -/

section Hops

variable {config : TracerouteConfig} {env : Env} {st : State}

/-- The probes of one hop, from the first. -/
def hopAt (config : TracerouteConfig) (env : Env) (ttl : ℕ) : State :=
  probeLoop config env config.probesPerHop.toNat 0 { hop := { ttl := ttl } }

theorem stopped_hopAt_iff {ttl : ℕ} : (hopAt config env ttl).stopped = true ↔
    ∃ i < config.probesPerHop.toNat, Ends config env ⟨ttl, i⟩ := by
  rw [hopAt, stopped_probeLoop_iff rfl]
  simp

theorem mem_answers_hopAt {ttl : ℕ} {a : Credit} : a ∈ (hopAt config env ttl).hop.answers ↔
    ∃ i < config.probesPerHop.toNat, (∀ j < i, ¬ Ends config env ⟨ttl, j⟩) ∧
      a.probe = ⟨ttl, i⟩ ∧ ComesFirst config env a.probe a.error := by
  rw [hopAt, mem_answers_probeLoop rfl]
  simp

theorem recorded_hopAt {ttl : ℕ} : Recorded env (hopAt config env ttl).hop :=
  recorded_probeLoop recorded_start

/-- The next hop starts afresh. -/
theorem next_eq (h : st.stopped = false) (hop : TracerouteHop) :
    { st with hop := hop } = ({ hop := hop } : State) := by
  simp only [State.stopped, Bool.or_eq_false_iff] at h
  rw [State.mk.injEq]
  exact ⟨rfl, h.1.1, h.1.2, h.2⟩

/-- **The hops of the result**: the TTL can be set, and no probe before the hop ends the trace. -/
theorem mem_hopLoop {n ttl : ℕ} {hops : List TracerouteHop} {hop : TracerouteHop}
    (hst : st.stopped = false) : hop ∈ (hopLoop config env n ttl hops st).1 ↔ hop ∈ hops ∨
      ∃ t, ttl ≤ t ∧ t < ttl + n ∧ (∀ t', ttl ≤ t' → t' ≤ t → env.ttlSet t' = true) ∧
        (∀ t', ttl ≤ t' → t' < t → (hopAt config env t').stopped = false) ∧
        hop = (hopAt config env t).hop := by
  -- the induction is on the hops that are left
  induction n generalizing ttl hops st with
  | zero =>
    rw [hopLoop]
    refine (or_iff_left ?_).symm
    rintro ⟨t, hle, hlt, -⟩
    omega
  | succ n ih =>
    rw [hopLoop, if_neg (by simp [hst])]
    cases hset : env.ttlSet ttl with
    | false =>
      rw [if_pos (by simp)]
      refine (or_iff_left ?_).symm
      rintro ⟨t, hle, -, hall, -⟩
      rw [hall ttl le_rfl hle] at hset
      cases hset
    | true =>
      rw [if_neg (by simp), next_eq hst]
      change hop ∈ (hopLoop config env n (ttl + 1) (hops ++ [(hopAt config env ttl).hop])
        (hopAt config env ttl)).1 ↔ _
      cases hstop : (hopAt config env ttl).stopped with
      -- the trace ends with this hop
      | true =>
        have hloop : hopLoop config env n (ttl + 1) (hops ++ [(hopAt config env ttl).hop])
            (hopAt config env ttl) =
            (hops ++ [(hopAt config env ttl).hop], hopAt config env ttl) := by
          cases n with
          | zero => rfl
          | succ n => rw [hopLoop, if_pos hstop]
        rw [hloop, List.mem_append, List.mem_singleton]
        refine or_congr_right ⟨?_, ?_⟩
        · rintro rfl
          refine ⟨ttl, le_rfl, by omega, fun t' hle hle' => ?_, fun t' hle hlt => by omega, rfl⟩
          rwa [show t' = ttl by omega]
        · rintro ⟨t, hle, hlt, -, hbefore, rfl⟩
          have ht : t = ttl := by
            by_contra hne
            rw [hbefore ttl le_rfl (by omega)] at hstop
            cases hstop
          rw [ht]
      -- it goes on with the next
      | false =>
        rw [ih hstop, List.mem_append, List.mem_singleton, or_assoc]
        refine or_congr_right ⟨?_, ?_⟩
        · rintro (rfl | ⟨t, hle, hlt, hall, hbefore, rfl⟩)
          · refine ⟨ttl, le_rfl, by omega, fun t' hle hle' => ?_, fun t' hle hlt => by omega, rfl⟩
            rwa [show t' = ttl by omega]
          · refine ⟨t, by omega, by omega, fun t' hle' hle'' => ?_, fun t' hle' hlt' => ?_, rfl⟩
            · by_cases ht' : t' = ttl
              · rwa [ht']
              · exact hall t' (by omega) hle''
            · by_cases ht' : t' = ttl
              · rwa [ht']
              · exact hbefore t' (by omega) hlt'
        · rintro ⟨t, hle, hlt, hall, hbefore, rfl⟩
          by_cases ht : t = ttl
          · exact .inl (by rw [ht])
          · exact .inr ⟨t, by omega, by omega, fun t' hle' hle'' => hall t' (by omega) hle'',
              fun t' hle' hlt' => hbefore t' (by omega) hlt', rfl⟩

theorem reached_hopLoop {n ttl : ℕ} {hops : List TracerouteHop}
    (h : st.reached = true → ∃ hop ∈ hops, hop.reached = true) :
    (hopLoop config env n ttl hops st).2.reached = true →
      ∃ hop ∈ (hopLoop config env n ttl hops st).1, hop.reached = true := by
  induction n generalizing ttl hops st with
  | zero => exact h
  | succ n ih =>
    rw [hopLoop]
    split_ifs with hstop
    · exact h
    · exact h
    · refine ih fun hreached => ?_
      rw [next_eq (Bool.eq_false_iff.mpr hstop)] at hreached ⊢
      exact ⟨_, List.mem_append_right _ (List.mem_singleton_self _),
        reached_probeLoop (by simp) hreached⟩

variable {host : Bytes} {port : ℕ} {hop : TracerouteHop}

/-- The set-up of the socket succeeds. -/
theorem traceRouteImpl_cases (config : TracerouteConfig) (env : Env) (host : Bytes) (port : ℕ) :
    (env.resolved ≠ none ∧ env.socket = true ∧ env.recvErr = true ∧ env.connected = .connected ∧
      (traceRouteImpl config env host port).hops =
        (hopLoop config env config.maxHops.toNat 1 [] { hop := {} }).1 ∧
      (traceRouteImpl config env host port).status =
        statusOf (hopLoop config env config.maxHops.toNat 1 [] { hop := {} }).2) ∨
    (¬ (env.resolved ≠ none ∧ env.socket = true ∧ env.recvErr = true ∧ env.connected = .connected) ∧
      (traceRouteImpl config env host port).hops = [] ∧
      (traceRouteImpl config env host port).status ≠ .reached) := by
  unfold traceRouteImpl
  dsimp only
  cases env.resolved with
  | none => exact .inr (by simp)
  | some ip =>
    cases env.socket with
    | false => exact .inr (by simp)
    | true =>
      cases env.recvErr with
      | false => exact .inr (by simp)
      | true =>
        cases env.connected with
        | noRoute => exact .inr (by simp)
        | failed => exact .inr (by simp)
        | connected => exact .inl ⟨by simp, rfl, rfl, rfl, rfl, rfl⟩

/-- The hops of a trace. -/
theorem mem_hops_iff : hop ∈ (traceRouteImpl config env host port).hops ↔
    (env.resolved ≠ none ∧ env.socket = true ∧ env.recvErr = true ∧ env.connected = .connected) ∧
      ∃ t, 1 ≤ t ∧ t ≤ config.maxHops.toNat ∧ (∀ t', 1 ≤ t' → t' ≤ t → env.ttlSet t' = true) ∧
        (∀ t', 1 ≤ t' → t' < t → (hopAt config env t').stopped = false) ∧
        hop = (hopAt config env t).hop := by
  obtain ⟨hresolved, hsocket, hrecv, hconnected, hhops, -⟩ | ⟨hno, hhops, -⟩ :=
    traceRouteImpl_cases config env host port
  · rw [hhops, mem_hopLoop rfl, iff_true_intro (⟨hresolved, hsocket, hrecv, hconnected⟩ :
      env.resolved ≠ none ∧ env.socket = true ∧ env.recvErr = true ∧ env.connected = .connected)]
    simp only [List.not_mem_nil, false_or, true_and, Nat.add_comm 1, Nat.lt_succ_iff]
  · rw [hhops]
    simp [hno]

theorem not_stopped_hopAt {ttl : ℕ} : (hopAt config env ttl).stopped = false ↔
    ∀ i < config.probesPerHop.toNat, ¬ Ends config env ⟨ttl, i⟩ := by
  rw [← Bool.not_eq_true, stopped_hopAt_iff]
  simp

/-- **The answers of a trace** are what comes first for the probes it gets to. -/
theorem exists_answer_iff {a : Credit} :
    (∃ hop ∈ (traceRouteImpl config env host port).hops, a ∈ hop.answers) ↔
      Made config env a.probe ∧ ComesFirst config env a.probe a.error := by
  constructor
  · rintro ⟨hop, hhop, ha⟩
    obtain ⟨⟨hresolved, hsocket, hrecv, hconnected⟩, t, hone, hle, hall, hbefore, rfl⟩ :=
      mem_hops_iff.mp hhop
    obtain ⟨i, hi, hprobes, hprobe, hfirst⟩ := mem_answers_hopAt.mp ha
    refine ⟨?_, hfirst⟩
    rw [hprobe]
    exact
      { resolved := hresolved
        socket := hsocket
        recvErr := hrecv
        connected := hconnected
        one_le := hone
        ttl_le := hle
        probe_lt := hi
        ttlSet := hall
        hops := fun t' hone' hlt => not_stopped_hopAt.mp (hbefore t' hone' hlt)
        probes := hprobes }
  · rintro ⟨hmade, hfirst⟩
    refine ⟨(hopAt config env a.probe.ttl).hop, mem_hops_iff.mpr ⟨?_, a.probe.ttl, ?_⟩, ?_⟩
    · exact ⟨hmade.resolved, hmade.socket, hmade.recvErr, hmade.connected⟩
    · exact ⟨hmade.one_le, hmade.ttl_le, hmade.ttlSet,
        fun t' hone hlt => not_stopped_hopAt.mpr (hmade.hops t' hone hlt), rfl⟩
    · exact mem_answers_hopAt.mpr ⟨a.probe.probe, hmade.probe_lt, hmade.probes, rfl, hfirst⟩

end Hops

/-! ### Attribution -/

variable {config : TracerouteConfig} {env : Env} {host : Bytes} {port : ℕ}

/-- A hop whose answers are its own is attributed. -/
theorem attributed_of_own {hop : TracerouteHop} (h : Recorded env hop)
    (hown : ∀ a ∈ hop.answers, a.error.cause = a.probe) : Attributed env hop where
  addr hne := by
    obtain ⟨a, ha, haddr⟩ := h.addr hne
    exact ⟨a, ha, by rw [hown a ha, h.ttl a ha], haddr⟩
  rtt r hr hne := by
    obtain ⟨a, ha, hrtt⟩ := h.rtt r hr hne
    exact ⟨a, ha, by rw [hown a ha, h.ttl a ha], by rw [hown a ha, hrtt]⟩
  reached hreached := by
    obtain ⟨a, ha, hdone⟩ := h.reached hreached
    exact ⟨a, ha, by rw [hown a ha, h.ttl a ha], hdone⟩
  own := hown

/-- **Replies are attributed to the right hop** exactly when no late one comes first. -/
theorem attributesReplies_iff :
    AttributesReplies config env host port ↔ NoLateReply config env := by
  constructor
  · rintro ⟨hhops, -⟩ id ee hmade hfirst
    obtain ⟨hop, hhop, ha⟩ :=
      (@exists_answer_iff config env host port ⟨id, ee⟩).mpr ⟨hmade, hfirst⟩
    exact (hhops hop hhop).own _ ha
  · intro hlate
    refine ⟨fun hop hhop => ?_, fun hstatus => ?_⟩
    · refine attributed_of_own ?_ fun a ha => ?_
      · obtain ⟨-, t, -, -, -, -, rfl⟩ := mem_hops_iff.mp hhop
        exact recorded_hopAt
      · obtain ⟨hmade, hfirst⟩ := exists_answer_iff.mp ⟨hop, hhop, ha⟩
        exact hlate _ _ hmade hfirst
    · obtain ⟨-, -, -, -, hhops, heq⟩ | ⟨-, -, hne⟩ := traceRouteImpl_cases config env host port
      · rw [hhops]
        rw [heq, statusOf] at hstatus
        split_ifs at hstatus with hroute hreached
        exact reached_hopLoop (by simp) hreached
      · exact absurd hstatus hne

/-- The Time Exceeded of the first hop. -/
def lateError : ExtendedErr where
  type := timeExceeded
  offender := ascii "192.0.2.1"
  cause := ⟨1, 0⟩

/-- Two hops with one probe each: the router of the first answers after the timeout of the first probe. -/
def lateEnv : Env where
  resolved := some (ascii "203.0.113.9")
  socket := true
  recvErr := true
  connected := .connected
  ttlSet _ := true
  probe id :=
    if id.ttl = 1 then
      { sendTime := 0, sent := .sent, turns := [⟨0, .silent⟩], readTime := 2 }
    else
      { sendTime := 2, sent := .sent, turns := [⟨2, .entry (some lateError)⟩], readTime := 3 }

/-- The second hop is recorded with the address of the first. -/
theorem not_attributesReplies_late : ¬ AttributesReplies { maxHops := 2, probesPerHop := 1 } lateEnv
    (ascii "h") 33434 := by
  rintro ⟨hhops, -⟩
  have hown := (hhops ⟨2, ascii "192.0.2.1", [1000], 0, false, [⟨⟨2, 0⟩, lateError⟩]⟩ (by
    decide +kernel)).own ⟨⟨2, 0⟩, lateError⟩ (List.mem_singleton_self _)
  exact absurd hown (by decide)

end Traceroute

end AsterNet
