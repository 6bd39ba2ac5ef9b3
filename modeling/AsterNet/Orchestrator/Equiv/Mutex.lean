import AsterNet.Orchestrator.Equiv.Coalescer

/-!
# The coalescer's mutex and the operations

The first locked section returns `operation(context, response)` from inside the scope of its guard when
the table is full, so that operation runs under the mutex and every other thread waits for it.

* `lockFree_iff`: no operation runs under the mutex in any state of a run exactly when no thread brings
  a new key while the table is full.
* `not_lockFree`: two requests for different hosts on a coalescer with one flight.
-/

namespace AsterNet.Orchestrator

namespace Coalescer

open Transition

variable {ι : Type}

/-- No thread that runs its operation owns the mutex. -/
def LockFree (m : Machine ι) : Prop :=
  ∀ t, (m.phase t).isExecuting = true → m.owner ≠ some t

/-- The table takes the key: the section does not start an operation. -/
def Takes (s : Trace ι) : Act ι → Prop
  | .join t => ∀ call, s.1.phase t = .joining call →
      dedupKey call.context ∈ s.1.flights ∨ s.1.flights.entries.length < s.1.maxFlights
  | _ => True

/-- The owner of the mutex is in a locked section. -/
def OwnerInSection (m : Machine ι) : Prop :=
  ∀ t, m.owner = some t → (m.phase t).inSection = true

section

variable {m m' : Machine ι} {h h' : List (Event ι)} {t : ι}

theorem lockFree_of_ownerInSection (ho : OwnerInSection m) : LockFree m := by
  intro t hexec howner
  have hsection := ho t howner
  cases hphase : m.phase t <;> simp [hphase, Phase.isExecuting, Phase.inSection] at hexec hsection

theorem ownerInSection_of_free (hfree : m.owner = none) : OwnerInSection m := by
  intro u howner
  rw [hfree] at howner
  cases howner

variable [DecidableEq ι]

/-- A thread outside the sections moves on. -/
theorem OwnerInSection.goto (ho : OwnerInSection m) (hphase : (m.phase t).inSection = false)
    (p : Phase) : OwnerInSection (m.goto t p) := by
  intro u howner
  have hsection := ho u howner
  have hne : u ≠ t := by
    rintro rfl
    rw [hphase] at hsection
    cases hsection
  rw [Machine.goto_phase_of_ne m hne]
  exact hsection

/-- **Every step keeps the owner in a section**, when the table takes the key. -/
theorem ownerInSection_of_steps {a : Act ι} (ho : OwnerInSection m) (hc : Takes (m, h) a)
    (hs : Steps (m, h) a (m', h')) : OwnerInSection m' := by
  cases a with
  | enter t call =>
    obtain ⟨hphase, -, rfl⟩ := steps_enter hs
    exact ho.goto (by rw [hphase]; rfl) _
  | acquire t =>
    obtain ⟨-, hsection, -, rfl⟩ := steps_acquire hs
    intro u howner
    obtain rfl := Option.some.inj howner
    exact hsection
  | join t =>
    obtain ⟨call, hphase, -, rfl, -⟩ := steps_join hs
    rcases hlookup : m.flights.lookup (dedupKey call.context) with - | f
    · -- an unknown key is registered, as there is room for it
      have hnew : dedupKey call.context ∉ m.flights := AList.lookup_eq_none.mp hlookup
      have hroom := (hc call hphase).resolve_left hnew
      rw [Machine.join_of_room m hlookup hroom]
      exact ownerInSection_of_free rfl
    · rw [Machine.join_of_found m hlookup]
      exact ownerInSection_of_free rfl
  | finish t ending =>
    rcases steps_finish hs with ⟨call, hphase, -, rfl⟩ | ⟨call, hphase, -, rfl⟩ |
      ⟨f, key, call, hphase, -, rfl⟩
    · exact ho.goto (by rw [hphase]; rfl) _
    · exact ownerInSection_of_free rfl
    · exact ho.goto (by rw [hphase]; rfl) _
  | publish t =>
    obtain ⟨f, key, result, call, -, -, -, rfl⟩ := steps_publish hs
    exact ownerInSection_of_free rfl
  | check t nowMs =>
    obtain ⟨f, deadlineMs, call, -, -, rfl, -⟩ := steps_check hs
    exact ownerInSection_of_free rfl
  | leave t =>
    obtain ⟨hphase, -, rfl⟩ := steps_leave hs
    have hout : (m.phase t).inSection = false := by
      rcases hphase with ⟨result, call, hphase⟩ | hphase <;> rw [hphase] <;> rfl
    exact ho.goto hout _

/-- A new key at a full table: the operation starts under the mutex. -/
theorem not_lockFree_of_steps {a : Act ι} (hc : ¬ Takes (m, h) a) (hs : Steps (m, h) a (m', h')) :
    ¬ LockFree m' := by
  cases a with
  | join t =>
    obtain ⟨call, hphase, howner, rfl, -⟩ := steps_join hs
    obtain ⟨call', hphase', hfull⟩ : ∃ call', m.phase t = .joining call' ∧
        ¬ (dedupKey call'.context ∈ m.flights ∨ m.flights.entries.length < m.maxFlights) := by
      simpa [Takes] using hc
    obtain rfl : call = call' := Phase.joining.inj (hphase.symm.trans hphase')
    rw [not_or, Nat.not_lt] at hfull
    rw [Machine.join_of_full m (AList.lookup_eq_none.mpr hfull.1) hfull.2]
    intro hfree
    exact hfree t (by rw [Machine.goto_phase_self]; rfl) howner
  | _ => exact absurd trivial hc

end

/-- **When no operation runs under the mutex**: in every state of a run, for any threads, if and only if
no thread brings a new key while the table is full. -/
theorem lockFree_iff [DecidableEq ι] {maxFlights : ℕ} {acts : List (Act ι)} {s : Trace ι}
    (hrun : Run Steps (Machine.init maxFlights, []) acts s) :
    (∀ acts₁ acts₂ s', acts = acts₁ ++ acts₂ →
      Run Steps (Machine.init maxFlights, []) acts₁ s' → LockFree s'.1) ↔
    StepsMeet Steps Takes (Machine.init maxFlights, []) acts s := by
  apply hrun.forall_prefix_iff_stepsMeet (I := fun s : Trace ι => OwnerInSection s.1)
  · intro s a t u ht hu
    exact Option.some.inj (ht.symm.trans hu)
  · exact fun _ ho => lockFree_of_ownerInSection ho
  · exact fun _ _ _ ho hc hs => ownerInSection_of_steps ho hc hs
  · exact fun _ _ _ _ hc hs => not_lockFree_of_steps hc hs
  · exact ownerInSection_of_free rfl

/-- Two requests for different hosts. -/
def saturatedRun : List (Act Bool) :=
  [.enter false (getCall [97]), .acquire false, .join false, .enter true (getCall [98]), .acquire true,
    .join true]

/-- The second operation runs under the mutex of a coalescer with one flight. -/
theorem not_lockFree : ¬ ∀ acts (s : Trace Bool),
    Run Steps (Machine.init 1, []) acts s → LockFree s.1 := by
  intro hall
  have hend : (saturatedRun.foldlM next (Machine.init 1, [])).bind
      (fun s => some (s.1.owner, (s.1.phase true).isExecuting)) = some (some true, true) := by
    decide +kernel
  obtain ⟨s, hfold, heq⟩ := Option.bind_eq_some_iff.mp hend
  obtain ⟨howner, hexec⟩ := Prod.mk.inj (Option.some.inj heq)
  exact hall saturatedRun s (Run.of_foldlM hfold) true hexec howner

/-- A coalescer with two flights takes both keys. -/
theorem lockFree_saturatedRun : ∃ s, Run Steps (Machine.init 2, []) saturatedRun s ∧
    ((∀ acts₁ acts₂ s', saturatedRun = acts₁ ++ acts₂ →
      Run Steps (Machine.init 2, []) acts₁ s' → LockFree s'.1) ↔
    StepsMeet Steps Takes (Machine.init 2, []) saturatedRun s) := by
  have hsome : (saturatedRun.foldlM next (Machine.init 2, [])).isSome = true := by decide +kernel
  obtain ⟨s, hfold⟩ := Option.isSome_iff_exists.mp hsome
  have hrun : Run Steps (Machine.init 2, []) saturatedRun s := Run.of_foldlM hfold
  exact ⟨s, hrun, lockFree_iff hrun⟩

end Coalescer

end AsterNet.Orchestrator
