import AsterNet.Lib.Completion
import AsterNet.Orchestrator.Equiv.Mutex

/-!
# The calls of a coalescer come to their end

Whatever state the threads have reached, there is always one that can go on, though the others may wait for
the mutex or for a flight.

* `drains_of_run`: all calls can still return.  When they have, no flight is left in the table and nobody
  holds the mutex.
-/

namespace AsterNet.Orchestrator

namespace Coalescer

open Transition

variable {ι : Type} [DecidableEq ι] {m m' : Machine ι} {h h' : List (Event ι)} {t u : ι} {s : Trace ι}

/-- `execute` is called. -/
def Act.isEnter {ι : Type} : Act ι → Bool
  | .enter .. => true
  | _ => false

/-- The thread owns the mutex only in a section, or in an operation that the full table left to it. -/
def OwnerBusy (m : Machine ι) : Prop :=
  ∀ t, m.owner = some t → (m.phase t).inSection = true ∨ ∃ call, m.phase t = .saturated call

omit [DecidableEq ι] in
theorem ownerBusy_of_free (hfree : m.owner = none) : OwnerBusy m := by
  intro u howner
  rw [hfree] at howner
  cases howner

/-- A thread that does not own the mutex moves on. -/
theorem OwnerBusy.goto (ho : OwnerBusy m) (hother : m.owner ≠ some t) (p : Phase) : OwnerBusy (m.goto t p) := by
  intro u howner
  have hne : u ≠ t := by
    rintro rfl
    exact hother howner
  rw [Machine.goto_phase_of_ne m hne]
  exact ho u howner

/-- **Every step keeps the owner busy.** -/
theorem ownerBusy_of_steps {a : Act ι} (ho : OwnerBusy m) (hs : Steps (m, h) a (m', h')) : OwnerBusy m' := by
  -- a thread outside the sections does not hold the mutex
  have hidle : ∀ {t}, (m.phase t).inSection = false → (∀ call, m.phase t ≠ .saturated call) →
      m.owner ≠ some t := by
    intro t hout hdirect howner
    rcases ho t howner with hsection | ⟨call, hsaturated⟩
    · rw [hout] at hsection
      cases hsection
    · exact hdirect call hsaturated
  cases a with
  | enter t call =>
    obtain ⟨hphase, -, rfl⟩ := steps_enter hs
    exact ho.goto (hidle (by rw [hphase]; rfl) (by simp [hphase])) _
  | acquire t =>
    obtain ⟨-, hsection, -, rfl⟩ := steps_acquire hs
    intro u howner
    obtain rfl := Option.some.inj howner
    exact .inl hsection
  | join t =>
    obtain ⟨call, hphase, howner, rfl, -⟩ := steps_join hs
    rcases hlookup : m.flights.lookup (dedupKey call.context) with - | f
    · by_cases hroom : m.flights.entries.length < m.maxFlights
      · rw [Machine.join_of_room m hlookup hroom]
        exact ownerBusy_of_free rfl
      · -- the operation runs within the section
        rw [Machine.join_of_full m hlookup (Nat.le_of_not_lt hroom)]
        intro u hu
        obtain rfl : t = u := Option.some.inj (howner.symm.trans hu)
        exact .inr ⟨call, by rw [Machine.goto_phase_self]⟩
    · rw [Machine.join_of_found m hlookup]
      exact ownerBusy_of_free rfl
  | finish t ending =>
    rcases steps_finish hs with ⟨call, hphase, -, rfl⟩ | ⟨call, hphase, -, rfl⟩ |
      ⟨f, key, call, hphase, -, rfl⟩
    · exact ho.goto (hidle (by rw [hphase]; rfl) (by simp [hphase])) _
    · exact ownerBusy_of_free rfl
    · exact ho.goto (hidle (by rw [hphase]; rfl) (by simp [hphase])) _
  | publish t =>
    obtain ⟨f, key, result, call, -, -, -, rfl⟩ := steps_publish hs
    exact ownerBusy_of_free rfl
  | check t nowMs =>
    obtain ⟨f, deadlineMs, call, -, -, rfl, -⟩ := steps_check hs
    exact ownerBusy_of_free rfl
  | leave t =>
    obtain ⟨hphase, -, rfl⟩ := steps_leave hs
    refine ho.goto ?_ _
    rcases hphase with ⟨result, call, hphase⟩ | hphase
    · exact hidle (by rw [hphase]; rfl) (by simp [hphase])
    · exact hidle (by rw [hphase]; rfl) (by simp [hphase])

theorem sound_of_steps (s : Trace ι) (a : Act ι) (s' : Trace ι) (hI : Inv s.1 s.2 ∧ OwnerBusy s.1)
    (hs : Steps s a s') : Inv s'.1 s'.2 ∧ OwnerBusy s'.1 :=
  ⟨inv_of_steps hI.1 hs, ownerBusy_of_steps hI.2 hs⟩

theorem sound_of_run {maxFlights : ℕ} {acts : List (Act ι)}
    (hrun : Run Steps (Machine.init maxFlights, []) acts s) : Inv s.1 s.2 ∧ OwnerBusy s.1 :=
  hrun.invariant (I := fun s => Inv s.1 s.2 ∧ OwnerBusy s.1) sound_of_steps
    ⟨inv_init maxFlights, ownerBusy_of_free rfl⟩

/-! ### The work that is left -/

/-- The sections and operations that a call has left, at most. -/
def Phase.rank : Phase → ℕ
  | .idle => 0
  | .returned .. | .threw => 1
  | .direct _ | .saturated _ | .publishing .. | .following _ (some _) _ => 2
  | .leading .. | .following _ none _ => 3
  | .joining _ => 4

variable [Fintype ι]

/-- Those that all calls have left. -/
def work (m : Machine ι) : ℕ :=
  ∑ t, (m.phase t).rank

theorem work_lt_of_phase {p : Phase} (hphase : m'.phase = Function.update m.phase t p)
    (hrank : p.rank < (m.phase t).rank) : work m' < work m := by
  unfold work
  rw [hphase]
  exact sum_update_lt Phase.rank m.phase hrank

/-- The owner of the mutex can leave its section, and has less to do then. -/
theorem exists_steps_of_owner (howner : m.owner = some t)
    (hbusy : (m.phase t).inSection = true ∨ ∃ call, m.phase t = .saturated call) :
    ∃ a s', Steps (m, h) a s' ∧ a.isEnter = false ∧ work s'.1 < work m := by
  rcases hbusy with hsection | ⟨call, hphase⟩
  · cases hphase : m.phase t with
    | joining call =>
      have hact : m.act (.join t) = some (m.join t call) := by simp [Machine.act, hphase, howner]
      refine ⟨.join t, ((m.join t call).1, h ++ (m.join t call).2), by simp [Steps, next, hact], rfl, ?_⟩
      rcases hlookup : m.flights.lookup (dedupKey call.context) with - | f
      · by_cases hroom : m.flights.entries.length < m.maxFlights
        · rw [Machine.join_of_room m hlookup hroom]
          exact work_lt_of_phase (t := t) rfl (by simp [hphase, Phase.rank])
        · rw [Machine.join_of_full m hlookup (Nat.le_of_not_lt hroom)]
          exact work_lt_of_phase (t := t) rfl (by simp [hphase, Phase.rank])
      · rw [Machine.join_of_found m hlookup]
        exact work_lt_of_phase (t := t) rfl (by simp [hphase, Phase.rank])
    | publishing f key result call =>
      have hact : m.act (.publish t) = some (m.publish t f key result call,
          [.published t f key result call.response call.context.dnsCacheHit]) := by
        simp [Machine.act, hphase, howner]
      refine ⟨.publish t, (_, _), by simp only [Steps, next, hact]; rfl, rfl, ?_⟩
      exact work_lt_of_phase (t := t) rfl (by simp [hphase, Phase.rank])
    | following f deadlineMs call =>
      -- a look at the flight when the deadline has come
      let nowMs := (deadlineMs.getD 0).toNat
      have hact : m.act (.check t nowMs) = some (m.check t nowMs f deadlineMs call) := by
        simp [Machine.act, hphase, howner]
      refine ⟨.check t nowMs, (_, _), by simp only [Steps, next, hact]; rfl, rfl, ?_⟩
      refine work_lt_of_phase (t := t) (p := m.checked nowMs f deadlineMs call) rfl ?_
      rw [hphase]
      unfold Machine.checked
      by_cases hcomplete : (m.flight f).complete = true
      · rw [if_pos hcomplete]
        cases deadlineMs <;> simp [Phase.rank]
      · rw [if_neg hcomplete]
        cases deadlineMs with
        | none => simp [Phase.rank]
        | some deadlineMs =>
          have hlate : deadlineMs ≤ nowMs := Int.self_le_toNat deadlineMs
          simp [hlate, Phase.rank]
    | _ => simp [hphase, Phase.inSection] at hsection
  · have hact : m.act (.finish t (.threw call)) = some (m.unlock.goto t .threw, []) := by
      simp [Machine.act, hphase, Ending.leave]
    refine ⟨.finish t (.threw call), (_, _), by simp only [Steps, next, hact]; rfl, rfl, ?_⟩
    exact work_lt_of_phase (t := t) rfl (by simp [hphase, Phase.rank])

/-- A thread outside the sections can go on as it is. -/
theorem exists_steps_of_outside (hbusy : m.phase t ≠ .idle) (hout : (m.phase t).inSection = false) :
    ∃ a s', Steps (m, h) a s' ∧ a.isEnter = false ∧ work s'.1 < work m := by
  cases hphase : m.phase t with
  | idle => exact absurd hphase hbusy
  | direct call =>
    have hact : m.act (.finish t (.threw call)) = some (m.goto t .threw, []) := by
      simp [Machine.act, hphase, Ending.leave]
    refine ⟨.finish t (.threw call), (_, _), by simp only [Steps, next, hact]; rfl, rfl, ?_⟩
    exact work_lt_of_phase (t := t) rfl (by simp [hphase, Phase.rank])
  | saturated call =>
    have hact : m.act (.finish t (.threw call)) = some (m.unlock.goto t .threw, []) := by
      simp [Machine.act, hphase, Ending.leave]
    refine ⟨.finish t (.threw call), (_, _), by simp only [Steps, next, hact]; rfl, rfl, ?_⟩
    exact work_lt_of_phase (t := t) rfl (by simp [hphase, Phase.rank])
  | leading f key call =>
    refine ⟨.finish t (.threw call), (_, _), by simp only [Steps, next, Machine.act, hphase]; rfl, rfl, ?_⟩
    exact work_lt_of_phase (t := t) rfl (by simp [hphase, Phase.rank])
  | returned result call =>
    refine ⟨.leave t, (_, _), by simp only [Steps, next, Machine.act, hphase]; rfl, rfl, ?_⟩
    exact work_lt_of_phase (t := t) rfl (by simp [hphase, Phase.rank])
  | threw =>
    refine ⟨.leave t, (_, _), by simp only [Steps, next, Machine.act, hphase]; rfl, rfl, ?_⟩
    exact work_lt_of_phase (t := t) rfl (by simp [hphase, Phase.rank])
  | _ => simp [hphase, Phase.inSection] at hout

/-- **Progress**: as long as a call has not returned, the owner of the mutex can leave its section, or the
thread of the call can go on, when it needs the mutex after it has taken that. -/
theorem exists_run_of_busy (ho : OwnerBusy m) (hbusy : m.phase t ≠ .idle) :
    ∃ acts s', Run Steps (m, h) acts s' ∧ (∀ a ∈ acts, a.isEnter = false) ∧ work s'.1 < work m := by
  have hsingle : (∃ a s', Steps (m, h) a s' ∧ a.isEnter = false ∧ work s'.1 < work m) →
      ∃ acts s', Run Steps (m, h) acts s' ∧ (∀ a ∈ acts, a.isEnter = false) ∧ work s'.1 < work m := by
    rintro ⟨a, s', hs, henter, hlt⟩
    exact ⟨[a], s', .single hs, by simpa using henter, hlt⟩
  cases howner : m.owner with
  | some u => exact hsingle (exists_steps_of_owner howner (ho u howner))
  | none =>
    by_cases hsection : (m.phase t).inSection = true
    · have hacquire : Steps (m, h) (.acquire t) ({ m with owner := some t }, h) := by
        simp [Steps, next, Machine.act, howner, hsection]
      obtain ⟨a, s', hs, henter, hlt⟩ := exists_steps_of_owner (m := { m with owner := some t }) (h := h) rfl
        (.inl hsection)
      exact ⟨[.acquire t, a], s', .snoc (.single hacquire) hs, by simpa [Act.isEnter] using henter, hlt⟩
    · exact hsingle (exists_steps_of_outside hbusy (by simpa using hsection))

omit [DecidableEq ι] [Fintype ι] in
/-- A table without leaders is empty. -/
theorem Inv.entries_eq_nil (hi : Inv m h) (hidle : ∀ t, m.phase t = .idle) : m.flights.entries = [] := by
  rw [List.eq_nil_iff_forall_not_mem]
  rintro ⟨key, f⟩ hmem
  have hlookup : m.flights.lookup key = some f := AList.mem_lookup_iff.mpr hmem
  obtain ⟨t, hleads⟩ := (hi.lookup_iff key f).mp hlookup
  rw [Machine.Leads, hidle t] at hleads
  cases hleads

/-- **The calls come to their end**: from every state that threads can reach, the calls that have begun can
all return, and when they have, the table of flights is empty and the mutex free. -/
theorem drains_of_run {maxFlights : ℕ} {acts : List (Act ι)}
    (hrun : Run Steps (Machine.init maxFlights, []) acts s) :
    ∃ acts' s', Run Steps s acts' s' ∧ (∀ a ∈ acts', a.isEnter = false) ∧ (∀ t, s'.1.phase t = .idle) ∧
      s'.1.flights.entries = [] ∧ s'.1.owner = none := by
  have hdrain : ∃ acts' s', Run Steps s acts' s' ∧ (∀ a ∈ acts', a.isEnter = false) ∧
      (Inv s'.1 s'.2 ∧ OwnerBusy s'.1) ∧ ∀ t, s'.1.phase t = .idle := by
    refine exists_run_of_progress (I := fun s : Trace ι => Inv s.1 s.2 ∧ OwnerBusy s.1) (fun s => work s.1)
      (fun s hI hbusy => ?_) (sound_of_run hrun)
    obtain ⟨t, ht⟩ := not_forall.mp hbusy
    obtain ⟨acts, s', hrun, hacts, hlt⟩ := exists_run_of_busy (h := s.2) hI.2 ht
    have hI' := hrun.invariant (I := fun s : Trace ι => Inv s.1 s.2 ∧ OwnerBusy s.1) sound_of_steps hI
    exact ⟨acts, s', hrun, hacts, hI', hlt⟩
  obtain ⟨acts', s', hrun', hacts, ⟨hi, ho⟩, hidle⟩ := hdrain
  refine ⟨acts', s', hrun', hacts, hidle, hi.entries_eq_nil hidle, ?_⟩
  cases howner : s'.1.owner with
  | none => rfl
  | some t =>
    rcases ho t howner with hsection | ⟨call, hphase⟩
    · rw [hidle t] at hsection
      cases hsection
    · rw [hidle t] at hphase
      cases hphase

/-- With one flight, a leader runs its operation, and the call of another host holds the mutex for its own. -/
theorem drains_saturatedRun : ∃ s, Run Steps (Machine.init 1, []) saturatedRun s ∧ s.1.owner = some true ∧
    ∃ acts' s', Run Steps s acts' s' ∧ (∀ a ∈ acts', a.isEnter = false) ∧ (∀ t, s'.1.phase t = .idle) ∧
      s'.1.flights.entries = [] ∧ s'.1.owner = none := by
  have hend : (saturatedRun.foldlM next (Machine.init 1, [])).map (fun s => s.1.owner) = some (some true) := by
    decide +kernel
  obtain ⟨s, hfold, howner⟩ := Option.map_eq_some_iff.mp hend
  have hrun : Run Steps (Machine.init 1, []) saturatedRun s := Run.of_foldlM hfold
  exact ⟨s, hrun, howner, drains_of_run hrun⟩

end Coalescer

end AsterNet.Orchestrator
