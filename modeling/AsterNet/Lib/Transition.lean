import Mathlib.Data.List.Induction
import Mathlib.Tactic.Common

/-!
# Labelled transition systems and their runs

`Run step s ls t` is a run from `s` to `t` with labels `ls`.  `Run.invariant` is the induction rule:
what one step preserves holds at the end of every run.  `StepsMeet.invariant` is its form for runs
whose steps all meet a condition `C` on the state before the step and the label (`StepsMeet`).

`Run.iff_stepsMeet` is for a measure that a step keeps when it meets `C` and lowers otherwise: the runs
that keep it are those whose steps all meet `C`.  `Run.forall_prefix_iff_stepsMeet` is for a property of
every state of the run, and `Run.forall_step_iff_stepsMeet` for one of every step.  What every step goes
up in, the whole run goes up in (`forall_segment_iff`).

A run may keep a history of events; `Justified J` says of each of them how it follows from the ones
before it.
-/

namespace Transition

variable {σ ι : Type}

/-- A run of a labelled step relation from `s`. -/
inductive Run (step : σ → ι → σ → Prop) (s : σ) : List ι → σ → Prop
  | nil : Run step s [] s
  | snoc {t u : σ} {ls : List ι} {l : ι} (h : Run step s ls t) (hs : step t l u) :
      Run step s (ls ++ [l]) u

/-- A run from `s` each step of which meets `C` in the state it starts from. -/
inductive StepsMeet (step : σ → ι → σ → Prop) (C : σ → ι → Prop) (s : σ) : List ι → σ → Prop
  | nil : StepsMeet step C s [] s
  | snoc {t u : σ} {ls : List ι} {l : ι} (h : StepsMeet step C s ls t) (hc : C t l)
      (hs : step t l u) : StepsMeet step C s (ls ++ [l]) u

variable {step : σ → ι → σ → Prop} {C : σ → ι → Prop} {I : σ → Prop} {s t : σ} {ls : List ι}

theorem StepsMeet.run (h : StepsMeet step C s ls t) : Run step s ls t := by
  induction h with
  | nil => exact .nil
  | snoc _ _ hs ih => exact .snoc ih hs

theorem Run.single {l : ι} (h : step s l t) : Run step s [l] t :=
  .snoc .nil h

/-- A run that goes on. -/
theorem Run.append {u : σ} {ls' : List ι} (h : Run step s ls t) (h' : Run step t ls' u) :
    Run step s (ls ++ ls') u := by
  induction h' with
  | nil =>
    rw [List.append_nil]
    exact h
  | snoc _ hs ih =>
    rw [← List.append_assoc]
    exact .snoc ih hs

/-- A condition on the labels alone. -/
theorem Run.stepsMeet_of_forall {D : ι → Prop} (h : Run step s ls t) (hls : ∀ l ∈ ls, D l) :
    StepsMeet step (fun _ l => D l) s ls t := by
  induction h with
  | nil => exact .nil
  | snoc _ hs ih =>
    refine .snoc (ih fun l hl => hls l (List.mem_append_left _ hl)) ?_ hs
    exact hls _ (List.mem_append_right _ List.mem_cons_self)

/-- A condition that the invariant derives from another one. -/
theorem StepsMeet.imp {D : σ → ι → Prop} (hstep : ∀ s l t, I s → C s l → step s l t → I t)
    (himp : ∀ s l t, I s → C s l → step s l t → D s l) (h : StepsMeet step C s ls t) (hs : I s) :
    StepsMeet step D s ls t ∧ I t := by
  induction h with
  | nil => exact ⟨.nil, hs⟩
  | snoc _ hc hst ih => exact ⟨.snoc ih.1 (himp _ _ _ ih.2 hc hst) hst, hstep _ _ _ ih.2 hc hst⟩

/-- The run of a step function. -/
theorem Run.of_foldlM {f : σ → ι → Option σ} (h : ls.foldlM f s = some t) :
    Run (fun s l t => f s l = some t) s ls t := by
  induction ls using List.reverseRecOn generalizing t with
  | nil =>
    obtain rfl : s = t := by simpa using h
    exact .nil
  | append_singleton ls l ih =>
    rw [List.foldlM_append, Option.bind_eq_bind, Option.bind_eq_some_iff] at h
    obtain ⟨u, hu, hl⟩ := h
    exact .snoc (ih hu) (by simpa using hl)

/-- The run of a step function that can take all the steps. -/
theorem Run.of_isSome_foldlM {f : σ → ι → Option σ} (h : (ls.foldlM f s).isSome = true) :
    Run (fun s l t => f s l = some t) s ls ((ls.foldlM f s).getD s) := by
  obtain ⟨t, ht⟩ := Option.isSome_iff_exists.mp h
  rw [ht, Option.getD_some]
  exact .of_foldlM ht

/-- The run of a step function that checks the condition before each step. -/
theorem StepsMeet.of_foldlM {f : σ → ι → Option σ} [∀ s l, Decidable (C s l)]
    (h : ls.foldlM (fun s l => if C s l then f s l else none) s = some t) :
    StepsMeet (fun s l t => f s l = some t) C s ls t := by
  induction ls using List.reverseRecOn generalizing t with
  | nil =>
    obtain rfl : s = t := by simpa using h
    exact .nil
  | append_singleton ls l ih =>
    rw [List.foldlM_append, Option.bind_eq_bind, Option.bind_eq_some_iff] at h
    obtain ⟨u, hu, hl⟩ := h
    rw [List.foldlM_cons] at hl
    split_ifs at hl with hc
    · exact .snoc (ih hu) hc (by simpa using hl)
    · cases hl

theorem stepsMeet_snoc_iff {l : ι} : StepsMeet step C s (ls ++ [l]) t ↔
    ∃ u, StepsMeet step C s ls u ∧ C u l ∧ step u l t := by
  constructor
  · intro h
    generalize hls : ls ++ [l] = ls' at h
    cases h with
    | nil => simp at hls
    | snoc h hc hs =>
      obtain ⟨rfl, hl⟩ := List.append_inj' hls rfl
      obtain rfl := List.singleton_inj.mp hl
      exact ⟨_, h, hc, hs⟩
  · rintro ⟨u, h, hc, hs⟩
    exact .snoc h hc hs

/-- Runs of a deterministic relation are determined by their labels. -/
theorem Run.eq_of_deterministic (hdet : ∀ s l t u, step s l t → step s l u → t = u) {u : σ}
    (h : Run step s ls t) (h' : Run step s ls u) : t = u := by
  induction h generalizing u with
  | nil =>
    generalize hls : ([] : List ι) = ls' at h'
    cases h' with
    | nil => rfl
    | snoc => simp at hls
  | @snoc t₁ t₂ ls l _ hs ih =>
    generalize hls : ls ++ [l] = ls' at h'
    cases h' with
    | nil => simp at hls
    | snoc h' hs' =>
      obtain ⟨rfl, hl⟩ := List.append_inj' hls rfl
      obtain rfl := List.singleton_inj.mp hl
      obtain rfl := ih h'
      exact hdet _ _ _ _ hs hs'

/-- **The invariant rule.** -/
theorem Run.invariant (hstep : ∀ s l t, I s → step s l t → I t) (h : Run step s ls t)
    (hs : I s) : I t := by
  induction h with
  | nil => exact hs
  | snoc _ hst ih => exact hstep _ _ _ ih hst

/-- **The invariant rule** for runs whose steps meet a condition. -/
theorem StepsMeet.invariant (hstep : ∀ s l t, I s → C s l → step s l t → I t)
    (h : StepsMeet step C s ls t) (hs : I s) : I t := by
  induction h with
  | nil => exact hs
  | snoc _ hc hst ih => exact hstep _ _ _ ih hc hst

/-- **The exact condition for keeping a measure**, over a deterministic relation. -/
theorem Run.iff_stepsMeet (hdet : ∀ s l t u, step s l t → step s l u → t = u) (μ : σ → ℕ)
    (hkeep : ∀ s l t, C s l → step s l t → μ t = μ s)
    (hlower : ∀ s l t, ¬ C s l → step s l t → μ t < μ s) (h : Run step s ls t) :
    μ t = μ s ↔ StepsMeet step C s ls t := by
  suffices hboth : (StepsMeet step C s ls t → μ t = μ s) ∧ (¬ StepsMeet step C s ls t → μ t < μ s) by
    constructor
    · intro heq
      by_contra hnot
      have hlt := hboth.2 hnot
      omega
    · exact hboth.1
  induction h with
  | nil => exact ⟨fun _ => rfl, fun hnot => absurd .nil hnot⟩
  | @snoc t u ls l hrun hs ih =>
    constructor
    · intro hmeet
      obtain ⟨t', hmeet', hc, hs'⟩ := stepsMeet_snoc_iff.mp hmeet
      obtain rfl := hrun.eq_of_deterministic hdet hmeet'.run
      rw [hkeep _ _ _ hc hs', ih.1 hmeet']
    · intro hnot
      -- the condition fails at this step, or it failed before
      by_cases hmeet : StepsMeet step C s ls t
      · have hc : ¬ C t l := fun hc => hnot (.snoc hmeet hc hs)
        have hlt := hlower _ _ _ hc hs
        have heq := ih.1 hmeet
        omega
      · have hlt := ih.2 hmeet
        by_cases hc : C t l
        · rw [hkeep _ _ _ hc hs]
          exact hlt
        · have hlt' := hlower _ _ _ hc hs
          omega

/-- **The exact condition for a property of every state of a run**, over a deterministic relation: a step
that meets `C` keeps the invariant, from which the property follows, and any other step breaks it. -/
theorem Run.forall_prefix_iff_stepsMeet {P : σ → Prop}
    (hdet : ∀ s l t u, step s l t → step s l u → t = u) (hI : ∀ s, I s → P s)
    (hkeep : ∀ s l t, I s → C s l → step s l t → I t)
    (hbreak : ∀ s l t, I s → ¬ C s l → step s l t → ¬ P t) (hs : I s) (h : Run step s ls t) :
    (∀ ls₁ ls₂ u, ls = ls₁ ++ ls₂ → Run step s ls₁ u → P u) ↔ StepsMeet step C s ls t := by
  induction h with
  | nil =>
    refine ⟨fun _ => .nil, fun _ ls₁ ls₂ u heq hrun => ?_⟩
    obtain ⟨rfl, -⟩ := List.append_eq_nil_iff.mp heq.symm
    obtain rfl := hrun.eq_of_deterministic hdet .nil
    exact hI _ hs
  | @snoc t u ls l hrun hst ih =>
    constructor
    · intro hall
      have hmeet : StepsMeet step C s ls t := by
        refine ih.mp fun ls₁ ls₂ v heq => hall ls₁ (ls₂ ++ [l]) v ?_
        rw [heq, List.append_assoc]
      by_cases hc : C t l
      · exact .snoc hmeet hc hst
      · have hP := hall (ls ++ [l]) [] u (List.append_nil _).symm (.snoc hrun hst)
        exact absurd hP (hbreak t l u (hmeet.invariant hkeep hs) hc hst)
    · intro hmeet ls₁ ls₂ v heq hv
      rcases List.eq_nil_or_concat ls₂ with rfl | ⟨ls₂, l', rfl⟩
      · rw [List.append_nil] at heq
        subst heq
        obtain rfl := hv.eq_of_deterministic hdet hmeet.run
        exact hI _ (hmeet.invariant hkeep hs)
      · -- a shorter prefix
        rw [List.concat_eq_append, ← List.append_assoc] at heq
        obtain ⟨rfl, -⟩ := List.append_inj' heq rfl
        obtain ⟨t', hmeet', -, -⟩ := stepsMeet_snoc_iff.mp hmeet
        obtain rfl := hrun.eq_of_deterministic hdet hmeet'.run
        exact ih.mpr hmeet' ls₁ ls₂ v rfl hv

/-- **A condition at every step of a run**, over a deterministic relation. -/
theorem Run.forall_step_iff_stepsMeet (hdet : ∀ s l t u, step s l t → step s l u → t = u)
    (h : Run step s ls t) :
    (∀ before l after u, ls = before ++ l :: after → Run step s before u → C u l) ↔
      StepsMeet step C s ls t := by
  induction h with
  | nil =>
    refine ⟨fun _ => .nil, fun _ before l after u heq => ?_⟩
    simp at heq
  | @snoc t u ls l hrun hst ih =>
    constructor
    · intro hall
      refine .snoc (ih.mp ?_) (hall ls l [] t rfl hrun) hst
      rintro before l' after v rfl
      exact hall before l' (after ++ [l]) v (by simp)
    · intro hmeet before l' after v heq hv
      obtain ⟨t', hmeet', hc, -⟩ := stepsMeet_snoc_iff.mp hmeet
      obtain rfl := hrun.eq_of_deterministic hdet hmeet'.run
      -- the step is the last one, or one of the run before
      rcases List.eq_nil_or_concat after with rfl | ⟨after, last, rfl⟩
      · obtain ⟨rfl, hl⟩ := List.append_inj' heq rfl
        obtain rfl := List.singleton_inj.mp hl
        obtain rfl := hrun.eq_of_deterministic hdet hv
        exact hc
      · rw [List.concat_eq_append, ← List.cons_append, ← List.append_assoc] at heq
        obtain ⟨rfl, -⟩ := List.append_inj' heq rfl
        exact ih.mpr hmeet' before l' after v rfl hv

/-- **A preorder that every step of a run goes up in**, any part of the run goes up in. -/
theorem forall_segment_iff {R : σ → σ → Prop} (hrefl : ∀ s, R s s)
    (htrans : ∀ s t u, R s t → R t u → R s u) :
    (∀ before middle after u v, ls = before ++ middle ++ after → Run step s before u →
        Run step u middle v → R u v) ↔
      ∀ before l after u, ls = before ++ l :: after → Run step s before u → ∀ v, step u l v → R u v := by
  constructor
  · intro hall before l after u heq hu v hst
    exact hall before [l] after u v (by simp [heq]) hu (.single hst)
  · intro hall before middle after u v heq hu hv
    induction hv generalizing after with
    | nil => exact hrefl u
    | @snoc v w ms l hv hst ih =>
      have hprefix : ls = before ++ ms ++ l :: after := by simp [heq]
      exact htrans u v w (ih (l :: after) hprefix) (hall _ l after v hprefix (hu.append hv) w hst)

/-! ### Step functions -/

theorem run_foldl (f : σ → ι → σ) (s : σ) (ls : List ι) :
    Run (fun s l t => f s l = t) s ls (ls.foldl f s) := by
  induction ls using List.reverseRecOn with
  | nil => exact .nil
  | append_singleton ls l ih =>
    rw [List.foldl_append]
    exact .snoc ih rfl

theorem Run.eq_foldl {f : σ → ι → σ} (h : Run (fun s l t => f s l = t) s ls t) : t = ls.foldl f s := by
  refine h.eq_of_deterministic ?_ (run_foldl f s ls)
  rintro s l t u rfl rfl
  rfl

/-- **The exact condition for a property of every state of a run** of a total step function. -/
theorem forall_prefix_foldl_iff {f : σ → ι → σ} {P : σ → Prop} (hI : ∀ s, I s → P s)
    (hkeep : ∀ s l, I s → C s l → I (f s l)) (hbreak : ∀ s l, I s → ¬ C s l → ¬ P (f s l)) (hs : I s) :
    (∀ before after, ls = before ++ after → P (before.foldl f s)) ↔
      ∀ before l after, ls = before ++ l :: after → C (before.foldl f s) l := by
  have hdet : ∀ s l t u, f s l = t → f s l = u → t = u := by
    rintro s l t u rfl rfl
    rfl
  have hrun := run_foldl f s ls
  have hstate := hrun.forall_prefix_iff_stepsMeet (C := C) (P := P) hdet hI
    (by rintro s l t h hc rfl; exact hkeep s l h hc) (by rintro s l t h hc rfl; exact hbreak s l h hc) hs
  have hstep := hrun.forall_step_iff_stepsMeet (C := C) hdet
  constructor
  · intro hall before l after heq
    refine hstep.mpr (hstate.mp ?_) before l after _ heq (run_foldl f s before)
    intro before after t heq ht
    rw [ht.eq_foldl]
    exact hall before after heq
  · intro hall before after heq
    refine hstate.mpr (hstep.mp ?_) before after _ heq (run_foldl f s before)
    intro before l after t heq ht
    rw [ht.eq_foldl]
    exact hall before l after heq

/-! ### Histories -/

/-- Where an event is in a history that goes on. -/
theorem append_eq_append_cons {ε : Type} {h es before after : List ε} {e : ε}
    (heq : h ++ es = before ++ e :: after) :
    (∃ after', h = before ++ e :: after' ∧ after = after' ++ es) ∨
      ∃ before', before = h ++ before' ∧ es = before' ++ e :: after := by
  rcases List.append_eq_append_iff.mp heq with ⟨before', rfl, hes⟩ | ⟨rest, rfl, hafter⟩
  · exact .inr ⟨before', rfl, hes⟩
  · cases rest with
    | nil =>
      rw [List.append_nil]
      exact .inr ⟨[], (List.append_nil _).symm, hafter.symm⟩
    | cons e' rest =>
      obtain ⟨rfl, rfl⟩ := List.cons.inj hafter
      exact .inl ⟨rest, rfl, rfl⟩

/-- A history each event of which is justified by the events before it. -/
def Justified {ε : Type} (J : List ε → ε → Prop) (h : List ε) : Prop :=
  ∀ before e after, h = before ++ e :: after → J before e

section

variable {ε : Type} {J : List ε → ε → Prop} {h : List ε} {e : ε}

theorem justified_nil : Justified J [] := by
  intro before e after heq
  simp at heq

theorem justified_append_singleton_iff : Justified J (h ++ [e]) ↔ Justified J h ∧ J h e := by
  constructor
  · intro hj
    refine ⟨?_, hj h e [] rfl⟩
    rintro before e' after rfl
    exact hj before e' (after ++ [e]) (by simp)
  · rintro ⟨hj, he⟩ before e' after heq
    rcases List.eq_nil_or_concat after with rfl | ⟨after', last, rfl⟩
    · obtain ⟨rfl, hlast⟩ := List.append_inj' heq rfl
      obtain rfl := List.singleton_inj.mp hlast
      exact he
    · rw [List.concat_eq_append, ← List.cons_append, ← List.append_assoc] at heq
      obtain ⟨rfl, -⟩ := List.append_inj' heq rfl
      exact hj before e' after' rfl

/-- Events that need no justification. -/
theorem Justified.append_of_forall {es : List ε} (hj : Justified J h)
    (hes : ∀ e ∈ es, ∀ before, J before e) : Justified J (h ++ es) := by
  induction es using List.reverseRecOn with
  | nil => simpa using hj
  | append_singleton es e ih =>
    rw [← List.append_assoc]
    exact justified_append_singleton_iff.mpr
      ⟨ih fun e he => hes e (List.mem_append_left _ he), hes e (by simp) _⟩

/-- An event of a history, with the events that justify it. -/
theorem Justified.exists_of_mem (hj : Justified J h) (he : e ∈ h) :
    ∃ before after, h = before ++ e :: after ∧ J before e := by
  obtain ⟨before, after, heq⟩ := List.append_of_mem he
  exact ⟨before, after, heq, hj before e after heq⟩

end

end Transition
