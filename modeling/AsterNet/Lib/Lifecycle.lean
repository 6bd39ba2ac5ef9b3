import Mathlib.Data.List.Basic

/-!
# The lifecycle of resources

A resource is acquired, used while it is live, and released.  `Tracks live steps live'` says that a list of
such steps is in order, from the resources that are live before it to those that are live after it: nothing
is acquired that is live, and nothing is used or released that is not.

So a resource is released once for each time that it is acquired, if nothing is live at the end.  What is in
order in parts is in order as a whole (`Tracks.append`).
-/

namespace Lifecycle

variable {ρ : Type} [DecidableEq ρ]

/-- A step in the life of a resource. -/
inductive Step (ρ : Type)
  | acquire (r : ρ)
  | use (r : ρ)
  | release (r : ρ)
  deriving DecidableEq, Repr

/-- The live resources after a step that is in order. -/
def track (live : List ρ) : Step ρ → Option (List ρ)
  | .acquire r => if r ∈ live then none else some (r :: live)
  | .use r => if r ∈ live then some live else none
  | .release r => if r ∈ live then some (live.erase r) else none

/-- Steps that are in order. -/
def Tracks (live : List ρ) (steps : List (Step ρ)) (live' : List ρ) : Prop :=
  steps.foldlM track live = some live'

instance (live live' : List ρ) (steps : List (Step ρ)) : Decidable (Tracks live steps live') :=
  inferInstanceAs (Decidable (_ = _))

variable {live live' live'' : List ρ} {steps steps' : List (Step ρ)} {r : ρ}

@[simp] theorem tracks_nil_iff : Tracks live [] live' ↔ live = live' := by
  simp [Tracks]

theorem tracks_cons_iff {step : Step ρ} :
    Tracks live (step :: steps) live'' ↔ ∃ live', track live step = some live' ∧ Tracks live' steps live'' := by
  simp [Tracks, List.foldlM_cons, Option.bind_eq_some_iff]

theorem tracks_append_iff :
    Tracks live (steps ++ steps') live'' ↔ ∃ live', Tracks live steps live' ∧ Tracks live' steps' live'' := by
  simp [Tracks, List.foldlM_append, Option.bind_eq_some_iff]

/-- One part after the other. -/
theorem Tracks.append (h : Tracks live steps live') (h' : Tracks live' steps' live'') :
    Tracks live (steps ++ steps') live'' :=
  tracks_append_iff.mpr ⟨live', h, h'⟩

@[simp] theorem tracks_acquire_iff :
    Tracks live (.acquire r :: steps) live' ↔ r ∉ live ∧ Tracks (r :: live) steps live' := by
  by_cases hr : r ∈ live <;> simp [tracks_cons_iff, track, hr]

@[simp] theorem tracks_use_iff :
    Tracks live (.use r :: steps) live' ↔ r ∈ live ∧ Tracks live steps live' := by
  by_cases hr : r ∈ live <;> simp [tracks_cons_iff, track, hr]

@[simp] theorem tracks_release_iff :
    Tracks live (.release r :: steps) live' ↔ r ∈ live ∧ Tracks (live.erase r) steps live' := by
  by_cases hr : r ∈ live <;> simp [tracks_cons_iff, track, hr]

/-- Uses of live resources change nothing. -/
theorem tracks_uses (h : ∀ step ∈ steps, ∃ r ∈ live, step = .use r) : Tracks live steps live := by
  induction steps with
  | nil => simp
  | cons step steps ih =>
    obtain ⟨r, hr, rfl⟩ := h step List.mem_cons_self
    exact tracks_use_iff.mpr ⟨hr, ih fun step hstep => h step (List.mem_cons_of_mem _ hstep)⟩

end Lifecycle
