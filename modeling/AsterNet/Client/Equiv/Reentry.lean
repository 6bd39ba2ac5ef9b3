import AsterNet.Client.Reentry
import AsterNet.Lib.Completion
import Mathlib.Algebra.GroupWithZero.Nat

/-!
# What callbacks may call

* `guarded_of_run`: whatever callbacks call, a thread is never in two requests of one client, one inside the
  other, and in at most `kMaxActiveClients` requests at all.
* `completes_of_run`: when the callbacks that run under a `lifecycle_mutex_` only make calls that are refused,
  and those for the quality make any, a thread that waits for such a mutex holds none.  So the calls of all
  threads come to their end, whatever the order of their steps: `work` bounds the steps that are left, and as
  long as a call has not returned, some thread can go on.
* `waits_of_run`: only the calls that do not look at `is_active_client` can wait for a mutex that their own
  thread holds, and only in a log line of a request; those that want it alone then wait for ever.
-/

namespace AsterNet

namespace Client

namespace Reentry

open Transition

variable {κ ι : Type}

/-! ### The calls -/

variable {f : Frame κ}

/-- A call that waits holds nothing. -/
theorem holds_of_waits (h : f.waits ≠ .free) : f.holds = .free := by
  rcases f with ⟨client, entry, stage⟩
  cases stage <;> simp_all [Frame.waits, Frame.holds]

theorem waits_iff : f.waits ≠ .free ↔ f.stage = .entering ∨ f.stage = .publishing := by
  rcases f with ⟨client, entry, stage⟩
  cases stage <;> cases entry <;> simp [Frame.waits, Entry.mode]

/-- The steps that a call at a stage has left, at most. -/
def Stage.rank : Stage → ℕ
  | .entering => 6
  | .inside => 5
  | .left => 4
  | .publishing => 3
  | .updating => 2
  | .calledBack => 1

/-- The steps that the calls of a thread have left. -/
def rest (stack : List (Frame κ)) : ℕ :=
  (stack.map fun f => f.stage.rank).sum

@[simp] theorem rest_cons (f : Frame κ) (stack : List (Frame κ)) :
    rest (f :: stack) = f.stage.rank + rest stack := by
  simp [rest]

/-! ### The steps -/

section Stack

variable [DecidableEq ι] {m : Machine κ ι} {t u : ι}

@[simp] theorem stack_setStack_self (stack : List (Frame κ)) : (m.setStack t stack).stack t = stack := by
  simp [Machine.setStack]

theorem stack_setStack_of_ne (hne : u ≠ t) (stack : List (Frame κ)) :
    (m.setStack t stack).stack u = m.stack u := by
  simp [Machine.setStack, hne]

@[simp] theorem active_setStack (stack : List (Frame κ)) : (m.setStack t stack).active = m.active := rfl

end Stack

variable [DecidableEq κ] [DecidableEq ι] [Fintype ι] {m m' : Machine κ ι} {t u : ι}
  {a : Act κ ι} {acts : List (Act κ ι)}

/-- A call goes on within its client. -/
inductive Moves (m : Machine κ ι) : Stage → Stage → Frame κ → Prop
  | lock {f : Frame κ} (h : m.Available f.client f.waits) : Moves m .entering .inside f
  | relock {f : Frame κ} (h : m.Available f.client f.waits) : Moves m .publishing .updating f
  | unlock {f : Frame κ} : Moves m .inside .left f
  | reunlock {f : Frame κ} : Moves m .updating .calledBack f
  | publish {f : Frame κ} (h : f.entry.publishes = true) : Moves m .left .publishing f

/-- What a step does: nothing, or a call begins, goes on or returns. -/
inductive Change (m : Machine κ ι) : Act κ ι → Machine κ ι → Prop
  | refused {t : ι} {client : κ} {entry : Entry} (h : m.refused t client entry = true) :
      Change m (.call t client entry) m
  | entered {t : ι} {client : κ} {entry : Entry} (hfree : m.refused t client entry = false)
      (hback : (m.stack t).head?.all Frame.callsBack = true) :
      Change m (.call t client entry) (m.enter t client entry)
  | moved {t : ι} {a : Act κ ι} {f : Frame κ} {rest : List (Frame κ)} {stage : Stage}
      (ha : a.isCall = false) (hstack : m.stack t = f :: rest) (hmoves : Moves m f.stage stage f) :
      Change m a (m.setStack t ({ f with stage := stage } :: rest))
  | left {t : ι} {a : Act κ ι} {f : Frame κ} {rest : List (Frame κ)} (ha : a.isCall = false)
      (hstack : m.stack t = f :: rest) (hstage : f.stage = .left ∨ f.stage = .calledBack) :
      Change m a (m.leave t f rest)

theorem change_of_steps (hs : Steps m a m') : Change m a m' := by
  unfold Steps at hs
  cases a with
  -- a guarded call is refused when its client is active on the thread
  | call t client entry =>
    simp only [Machine.act] at hs
    split_ifs at hs with hback hrefused
    · obtain rfl := Option.some.inj hs
      exact .refused hrefused
    · obtain rfl := Option.some.inj hs
      exact .entered (by simpa using hrefused) hback
  | lock t =>
    simp only [Machine.act] at hs
    split at hs
    · case h_1 f rest hstack =>
      split at hs
      · case h_1 hstage =>
        split_ifs at hs with havailable
        obtain rfl := Option.some.inj hs
        exact .moved rfl hstack (by rw [hstage]; exact .lock havailable)
      · case h_2 hstage =>
        split_ifs at hs with havailable
        obtain rfl := Option.some.inj hs
        exact .moved rfl hstack (by rw [hstage]; exact .relock havailable)
      · cases hs
    · cases hs
  | unlock t =>
    simp only [Machine.act] at hs
    split at hs
    · case h_1 f rest hstack =>
      split at hs
      · case h_1 hstage =>
        obtain rfl := Option.some.inj hs
        exact .moved rfl hstack (by rw [hstage]; exact .unlock)
      · case h_2 hstage =>
        obtain rfl := Option.some.inj hs
        exact .moved rfl hstack (by rw [hstage]; exact .reunlock)
      · cases hs
    · cases hs
  | publish t =>
    simp only [Machine.act] at hs
    split at hs
    · case h_1 f rest hstack =>
      split_ifs at hs with hstage
      obtain rfl := Option.some.inj hs
      exact .moved rfl hstack (by rw [hstage.1]; exact .publish hstage.2)
    · cases hs
  | leave t =>
    simp only [Machine.act] at hs
    split at hs
    · case h_1 f rest hstack =>
      split_ifs at hs with hstage
      obtain rfl := Option.some.inj hs
      exact .left rfl hstack hstage
    · cases hs

/-! ### The guard -/

/-- The clients of the requests among the calls of a thread, the outermost first. -/
def requests (stack : List (Frame κ)) : List κ :=
  ((stack.filter fun f => f.entry = .request).map Frame.client).reverse

omit [DecidableEq κ] in
theorem requests_cons (f : Frame κ) (stack : List (Frame κ)) :
    requests (f :: stack) = requests stack ++ if f.entry = .request then [f.client] else [] := by
  unfold requests
  by_cases hrequest : f.entry = .request <;> simp [hrequest]

/-- `g_active_clients` holds the clients of the requests of its thread, each once. -/
structure Guarded (m : Machine κ ι) (t : ι) : Prop where
  active : m.active t = requests (m.stack t)
  nodup : (m.active t).Nodup
  bounded : (m.active t).length ≤ kMaxActiveClients

theorem guarded_of_steps (h : ∀ t, Guarded m t) (hs : Steps m a m') (u : ι) : Guarded m' u := by
  have hu := h u
  cases change_of_steps hs with
  | refused => exact hu
  | @entered t client entry hfree =>
    rcases eq_or_ne u t with rfl | hne
    -- a request joins the clients that are active on its thread
    · by_cases hrequest : entry = .request
      · subst hrequest
        simp only [Machine.refused, Entry.guarded, Bool.true_and, Bool.or_eq_false_iff, beq_self_eq_true,
          decide_eq_false_iff_not, not_le] at hfree
        refine ⟨?_, ?_, ?_⟩
        · simp [Machine.enter, Machine.setStack, requests_cons, hu.active]
        · simp [Machine.enter, List.nodup_append, hu.nodup]
          exact fun x hx heq => hfree.1 (heq ▸ hx)
        · simp [Machine.enter]
          exact hfree.2
      · refine ⟨?_, ?_, ?_⟩
        · simp [Machine.enter, Machine.setStack, requests_cons, hu.active, hrequest]
        · simpa [Machine.enter, hrequest] using hu.nodup
        · simpa [Machine.enter, hrequest] using hu.bounded
    · have hactive : (m.enter t client entry).active u = m.active u := by
        unfold Machine.enter
        dsimp only
        split_ifs
        · simp [hne]
        · rfl
      have hstack : (m.enter t client entry).stack u = m.stack u := stack_setStack_of_ne hne _
      exact ⟨by rw [hactive, hstack, hu.active], hactive ▸ hu.nodup, hactive ▸ hu.bounded⟩
  -- moving on changes the stage of a frame, but not which requests are on the stack
  | @moved t _ f rest stage _ hstack =>
    refine ⟨?_, hu.nodup, hu.bounded⟩
    rcases eq_or_ne u t with rfl | hne
    · rw [active_setStack, stack_setStack_self, hu.active, hstack, requests_cons, requests_cons]
    · rw [active_setStack, stack_setStack_of_ne hne, hu.active]
  | @left t _ f rest _ hstack =>
    rcases eq_or_ne u t with rfl | hne
    · have hactive := hu.active
      rw [hstack, requests_cons] at hactive
      -- a request that ends takes its own client away, which is the last
      by_cases hrequest : f.entry = .request
      · rw [if_pos hrequest] at hactive
        have hdrop : (m.active u).dropLast = requests rest := by rw [hactive, List.dropLast_concat]
        refine ⟨?_, ?_, ?_⟩
        · simp [Machine.leave, hrequest, Machine.setStack, hdrop]
        · simp only [Machine.leave, hrequest, if_true, Function.update_self]
          exact hu.nodup.sublist (List.dropLast_sublist _)
        · simp only [Machine.leave, hrequest, if_true, Function.update_self, List.length_dropLast]
          exact (Nat.sub_le _ _).trans hu.bounded
      · rw [if_neg hrequest, List.append_nil] at hactive
        refine ⟨?_, ?_, ?_⟩
        · simp [Machine.leave, hrequest, Machine.setStack, hactive]
        · simpa [Machine.leave, hrequest] using hu.nodup
        · simpa [Machine.leave, hrequest] using hu.bounded
    -- the other threads keep their lists
    · have hactive' : (m.leave t f rest).active u = m.active u := by
        unfold Machine.leave
        dsimp only
        split_ifs
        · simp [hne]
        · rfl
      have hstack' : (m.leave t f rest).stack u = m.stack u := stack_setStack_of_ne hne _
      exact ⟨by rw [hactive', hstack', hu.active], hactive' ▸ hu.nodup, hactive' ▸ hu.bounded⟩

/-- **The guard of requests**, whatever callbacks call: the requests of a thread that have not returned are of
different clients, and at most `kMaxActiveClients`. -/
theorem guarded_of_run (hrun : Run Steps {} acts m) (t : ι) : Guarded m t := by
  refine hrun.invariant (I := fun m => ∀ t, Guarded m t) ?_ ?_ t
  · intro m a m' h hs
    exact guarded_of_steps h hs
  · intro t
    exact ⟨rfl, List.nodup_nil, Nat.zero_le _⟩

/-- A log line of a request is handed to a callback, which requests from another client and dumps the first;
another thread reports a change of the network meanwhile. -/
def nested : List (Act ℕ (Fin 2)) :=
  [.call 0 0 .request, .lock 0, .call 1 0 .onNetworkChange, .call 0 1 .request, .lock 0, .call 0 0 .dumpDiag]

theorem guarded_nested : ∃ m : Machine ℕ (Fin 2), Run Steps {} nested m ∧ Guarded m 0 ∧ m.active 0 = [0, 1] := by
  have h : (nested.foldlM Machine.act ({} : Machine ℕ (Fin 2))).map (fun m => m.active 0) = some [0, 1] := by
    decide
  obtain ⟨m, hm, hactive⟩ := Option.map_eq_some_iff.mp h
  exact ⟨m, .of_foldlM hm, guarded_of_run (.of_foldlM hm) 0, hactive⟩

/-! ### The calls come to their end -/

/-- The steps that all calls have left. -/
def work (m : Machine κ ι) : ℕ :=
  ∑ t, rest (m.stack t)

omit [DecidableEq κ] in
theorem work_setStack_lt {stack : List (Frame κ)} (h : rest stack < rest (m.stack t)) :
    work (m.setStack t stack) < work m :=
  sum_update_lt rest m.stack h

omit [DecidableEq κ] [DecidableEq ι] [Fintype ι] in
theorem rank_lt_of_moves {stage stage' : Stage} (h : Moves m stage stage' f) : stage'.rank < stage.rank := by
  cases h <;> decide

/-- A step that is no call leaves less to do. -/
theorem work_lt_of_steps (ha : a.isCall = false) (hs : Steps m a m') : work m' < work m := by
  cases change_of_steps hs with
  | refused => cases ha
  | entered => cases ha
  | moved _ hstack hmoves =>
    refine work_setStack_lt ?_
    rw [hstack, rest_cons, rest_cons]
    exact Nat.add_lt_add_right (rank_lt_of_moves hmoves) _
  | left _ hstack hstage =>
    refine work_setStack_lt ?_
    rw [hstack, rest_cons]
    rcases hstage with hstage | hstage <;> simp [hstage, Stage.rank]

/-- A thread that holds a mutex makes only calls that are refused. -/
def Careful (m : Machine κ ι) : Act κ ι → Prop
  | .call t client entry => (∃ f ∈ m.stack t, f.holds ≠ .free) → m.refused t client entry = true
  | _ => True

/-- The calls that wait for one of their callbacks hold no mutex. -/
def Light (m : Machine κ ι) (t : ι) : Prop :=
  ∀ f ∈ (m.stack t).tail, f.holds = .free

theorem light_of_steps (h : ∀ t, Light m t) (hc : Careful m a) (hs : Steps m a m') (u : ι) :
    Light m' u := by
  have hu := h u
  unfold Light at hu ⊢
  cases change_of_steps hs with
  | refused => exact hu
  | @entered t client entry hfree =>
    rcases eq_or_ne u t with rfl | hne
    · intro f hf
      -- a careful thread makes no call while a frame below holds a lock
      by_contra hholds
      have hf' : f ∈ m.stack u := by simpa [Machine.enter, Machine.setStack] using hf
      exact absurd (hc ⟨f, hf', hholds⟩) (by simp [hfree])
    · have hstack : (m.enter t client entry).stack u = m.stack u := stack_setStack_of_ne hne _
      rwa [hstack]
  | @moved t _ f rest stage _ hstack =>
    rcases eq_or_ne u t with rfl | hne
    · rw [hstack] at hu
      rwa [stack_setStack_self]
    · rwa [stack_setStack_of_ne hne]
  | @left t _ f rest _ hstack =>
    rcases eq_or_ne u t with rfl | hne
    · rw [hstack] at hu
      have hstack' : (m.leave u f rest).stack u = rest := stack_setStack_self _
      rw [hstack']
      exact fun g hg => hu g (List.mem_of_mem_tail hg)
    · have hstack' : (m.leave t f rest).stack u = m.stack u := stack_setStack_of_ne hne _
      rwa [hstack']

omit [DecidableEq κ] [DecidableEq ι] [Fintype ι] in
theorem free_of_waits (h : Light m t) {stack : List (Frame κ)} (hstack : m.stack t = f :: stack)
    (hwaits : f.waits ≠ .free) {g : Frame κ} (hg : g ∈ m.stack t) : g.holds = .free := by
  rw [hstack] at hg
  rcases List.mem_cons.mp hg with rfl | hg
  · exact holds_of_waits hwaits
  · exact h g (by rwa [hstack])

/-- A call that does not wait can go on. -/
theorem exists_steps_of_not_waits {stack : List (Frame κ)} (hstack : m.stack t = f :: stack)
    (hwaits : ¬ f.waits ≠ .free) : ∃ a m', a.isCall = false ∧ Steps m a m' := by
  rw [waits_iff, not_or] at hwaits
  have hstage : (f.stage = .inside ∨ f.stage = .updating) ∨ f.stage = .left ∨ f.stage = .calledBack := by
    cases hf : f.stage <;> simp_all
  rcases hstage with (hstage | hstage) | hstage
  · exact ⟨.unlock t, m.setStack t ({ f with stage := .left } :: stack), rfl,
      by simp only [Steps, Machine.act, hstack, hstage]⟩
  · exact ⟨.unlock t, m.setStack t ({ f with stage := .calledBack } :: stack), rfl,
      by simp only [Steps, Machine.act, hstack, hstage]⟩
  · exact ⟨.leave t, m.leave t f stack, rfl, by simp only [Steps, Machine.act, hstack, if_pos hstage]⟩

/-- **Progress**: when those that wait hold nothing, some thread can go on. -/
theorem exists_steps (h : ∀ t, Light m t) (hne : m.stack t ≠ []) :
    ∃ a m', a.isCall = false ∧ Steps m a m' := by
  by_cases hall : ∀ u f stack, m.stack u = f :: stack → f.waits ≠ .free
  · obtain ⟨f, stack, hstack⟩ := List.exists_cons_of_ne_nil hne
    have hwaits := hall t f stack hstack
    have havailable : m.Available f.client f.waits := by
      intro u g hg _
      obtain ⟨g', stack', hstack'⟩ := List.exists_cons_of_ne_nil (List.ne_nil_of_mem hg)
      have hfree := free_of_waits (h u) hstack' (hall u g' stack' hstack') hg
      exact ⟨by simp [hfree], fun _ => hfree⟩
    rcases waits_iff.mp hwaits with hstage | hstage
    · exact ⟨.lock t, m.setStack t ({ f with stage := .inside } :: stack), rfl,
        by simp only [Steps, Machine.act, hstack, hstage, if_pos havailable]⟩
    · exact ⟨.lock t, m.setStack t ({ f with stage := .updating } :: stack), rfl,
        by simp only [Steps, Machine.act, hstack, hstage, if_pos havailable]⟩
  · push Not at hall
    obtain ⟨u, f, stack, hstack, hwaits⟩ := hall
    exact exists_steps_of_not_waits hstack (not_not.mpr hwaits)

theorem light_of_stepsMeet (hrun : StepsMeet Steps Careful {} acts m) (t : ι) : Light m t := by
  refine hrun.invariant (I := fun m => ∀ t, Light m t) ?_ ?_ t
  · intro m a m' h hc hs
    exact light_of_steps h hc hs
  · intro t f hf
    cases hf

/-- **The calls come to their end**, when the callbacks that run under a `lifecycle_mutex_` only make calls
that are refused: a thread that waits for one holds none, and whatever the order of the steps, no more than
`work` of them are left to calls that have begun, and if none of these can go on, all have returned. -/
theorem completes_of_run (hrun : StepsMeet Steps Careful {} acts m) :
    (∀ t f stack, m.stack t = f :: stack → f.waits ≠ .free → ∀ g ∈ m.stack t, g.holds = .free) ∧
      ∀ acts' m', Run Steps m acts' m' → (∀ a ∈ acts', a.isCall = false) →
        acts'.length ≤ work m ∧
          ((∀ a m'', a.isCall = false → ¬ Steps m' a m'') → ∀ t, m'.stack t = []) := by
  have h := light_of_stepsMeet hrun
  refine ⟨fun t f stack hstack hwaits g hg => free_of_waits (h t) hstack hwaits hg, ?_⟩
  intro acts' m' hrun' hacts
  have hend := hrun'.length_add_le (I := fun m => ∀ t, Light m t) (P := fun a => a.isCall = false) work
    (fun m₁ a m₂ h₁ ha hs => ⟨light_of_steps h₁ (by cases a <;> [cases ha; trivial; trivial; trivial; trivial])
      hs, work_lt_of_steps ha hs⟩) hacts h
  refine ⟨by omega, fun hstuck t => ?_⟩
  by_contra hne
  obtain ⟨a, m'', ha, hs⟩ := exists_steps hend.1 hne
  exact hstuck a m'' ha hs

instance (m : Machine κ ι) (a : Act κ ι) : Decidable (Careful m a) := by
  cases a <;> unfold Careful <;> infer_instance

/-- A call from the callback for the quality, and a refused one from a log line, while another thread waits for
the same client. -/
def careful : List (Act ℕ (Fin 2)) :=
  [.call 0 0 .request, .lock 0, .call 0 0 .dumpDiag, .call 1 0 .onNetworkChange, .unlock 0, .publish 0, .lock 0,
    .unlock 0, .call 0 0 .setQualityChangeCallback]

theorem completes_careful : ∃ m : Machine ℕ (Fin 2), StepsMeet Steps Careful {} careful m ∧
    ∀ acts' m', Run Steps m acts' m' → (∀ a ∈ acts', a.isCall = false) → acts'.length ≤ 13 := by
  have h : (careful.foldlM (fun m a => if Careful m a then m.act a else none)
      ({} : Machine ℕ (Fin 2))).map work = some 13 := by
    decide
  obtain ⟨m, hm, hwork⟩ := Option.map_eq_some_iff.mp h
  refine ⟨m, .of_foldlM hm, fun acts' m' hrun hacts => ?_⟩
  rw [← hwork]
  exact ((completes_of_run (.of_foldlM hm)).2 acts' m' hrun hacts).1

/-! ### Calls that wait for themselves -/

/-- How the calls of a thread stand in one another: those below the top are in callbacks, a call that looks at
`is_active_client` is not within a request of its client, and none that took the mutex of a client alone is
within a call that holds it.  Only some publish. -/
def Nests : List (Frame κ) → Prop
  | [] => True
  | f :: stack =>
    (∀ g ∈ stack, g.callsBack = true) ∧ (f.entry.guarded = true → f.client ∉ requests stack) ∧
      (f.entry.mode = .exclusive → f.stage ≠ .entering → ∀ g ∈ stack, g.client = f.client → g.holds = .free) ∧
      (f.stage = .publishing → f.entry.publishes = true) ∧ Nests stack

theorem nests_of_steps (hguarded : ∀ t, Guarded m t) (h : ∀ t, Nests (m.stack t)) (hs : Steps m a m') (u : ι) :
    Nests (m'.stack u) := by
  have hu := h u
  cases change_of_steps hs with
  | refused => exact hu
  | @entered t client entry hfree hback =>
    rcases eq_or_ne u t with rfl | hne
    · have hstack : (m.enter u client entry).stack u = ⟨client, entry, .entering⟩ :: m.stack u :=
        stack_setStack_self _
      rw [hstack]
      -- the new frame holds nothing yet; what is below it calls back
      refine ⟨fun g hg => ?_, fun hentry hmem => ?_, fun _ hstage => absurd rfl hstage,
        fun hstage => Stage.noConfusion hstage, hu⟩
      · cases hm : m.stack u with
        | nil => simp [hm] at hg
        | cons f stack =>
          rw [hm] at hg hu hback
          rcases List.mem_cons.mp hg with rfl | hg
          · simpa using hback
          · exact hu.1 g hg
      -- a guarded entry refuses a client that is on the stack
      · have hentry' : entry.guarded = true := hentry
        rw [← (hguarded u).active] at hmem
        have hmem' : client ∈ m.active u := hmem
        simp [Machine.refused, hentry', hmem'] at hfree
    · have hstack : (m.enter t client entry).stack u = m.stack u := stack_setStack_of_ne hne _
      rwa [hstack]
  | @moved t _ f stack stage _ hstack hmoves =>
    rcases eq_or_ne u t with rfl | hne
    · rw [stack_setStack_self]
      rw [hstack] at hu
      -- the stage of the top frame alone has changed
      refine ⟨hu.1, hu.2.1, fun hmode _ g hg hclient => ?_, fun hstage => ?_, hu.2.2.2.2⟩
      by_cases hstage : f.stage = .entering
      · -- the mutex was taken alone just now
        rw [hstage] at hmoves
        cases hmoves with
        | lock havailable =>
          have hwaits : f.waits = .exclusive := by simpa [Frame.waits, hstage] using hmode
          refine (havailable u g ?_ hclient).2 hwaits
          rw [hstack]
          exact List.mem_cons_of_mem _ hg
      · exact hu.2.2.1 hmode hstage g hg hclient
      · obtain rfl : stage = .publishing := hstage
        generalize f.stage = stage' at hmoves
        cases hmoves with
        | publish hpublishes => exact hpublishes
    · rwa [stack_setStack_of_ne hne]
  | @left t _ f stack _ hstack =>
    rcases eq_or_ne u t with rfl | hne
    · have hstack' : (m.leave u f stack).stack u = stack := stack_setStack_self _
      rw [hstack']
      rw [hstack] at hu
      exact hu.2.2.2.2
    · have hstack' : (m.leave t f stack).stack u = m.stack u := stack_setStack_of_ne hne _
      rwa [hstack']

/-- A call within a call that holds the mutex which it waits for. -/
structure WaitsForItself (m : Machine κ ι) (t : ι) (f g : Frame κ) (stack : List (Frame κ)) : Prop where
  stack_eq_cons : m.stack t = f :: stack
  waits : f.waits ≠ .free
  mem : g ∈ stack
  client : g.client = f.client
  holds : g.holds ≠ .free

omit [DecidableEq κ] [DecidableEq ι] [Fintype ι] in
/-- It is one of those that do not look at `is_active_client`. -/
theorem WaitsForItself.entry {stack : List (Frame κ)} {g : Frame κ} (h : WaitsForItself m t f g stack)
    (hnests : Nests (m.stack t)) :
    g.entry = .request ∧ f.stage = .entering ∧ f.entry.guarded = false := by
  rw [h.stack_eq_cons] at hnests
  obtain ⟨hback, hguarded, halone, hpublishes, -⟩ := hnests
  have hrequest : g.entry = .request := by
    have hg := hback g h.mem
    have hholds := h.holds
    rcases g with ⟨client, entry, stage⟩
    cases stage <;> cases entry <;> simp_all [Frame.callsBack, Frame.holds]
  have hfree : f.entry.guarded = false := by
    by_contra hentry
    refine hguarded (by simpa using hentry) ?_
    rw [← h.client, requests, List.mem_reverse]
    exact List.mem_map_of_mem (List.mem_filter.mpr ⟨h.mem, by simpa using hrequest⟩)
  refine ⟨hrequest, ?_, hfree⟩
  rcases waits_iff.mp h.waits with hstage | hstage
  · exact hstage
  · have hmode : f.entry.mode = .exclusive := by
      have hp := hpublishes hstage
      revert hp hfree
      cases f.entry <;> decide
    exact absurd (halone hmode (by simp [hstage]) g h.mem h.client) h.holds

/-- One that wants it alone does not go on. -/
theorem WaitsForItself.stack_eq {stack : List (Frame κ)} {g : Frame κ} (h : WaitsForItself m t f g stack)
    (halone : f.waits = .exclusive) (hs : Steps m a m') : m'.stack t = m.stack t := by
  -- the frame below holds the mutex, which this one wants alone
  have hlocked : ¬ m.Available f.client f.waits := by
    intro havailable
    refine h.holds ((havailable t g ?_ h.client).2 halone)
    rw [h.stack_eq_cons]
    exact List.mem_cons_of_mem _ h.mem
  -- a frame that waits neither calls back nor moves on nor leaves
  have hstage := waits_iff.mp h.waits
  cases change_of_steps hs with
  | refused => rfl
  | @entered u client entry _ hback =>
    have hne : t ≠ u := by
      rintro rfl
      rw [h.stack_eq_cons] at hback
      rcases hstage with hstage | hstage <;> simp [Frame.callsBack, hstage] at hback
    exact stack_setStack_of_ne hne _
  | @moved u _ f' _ _ _ hstack hmoves =>
    have hne : t ≠ u := by
      rintro rfl
      rw [h.stack_eq_cons] at hstack
      obtain ⟨rfl, rfl⟩ := List.cons.inj hstack
      rcases hstage with hstage | hstage <;> rw [hstage] at hmoves <;> cases hmoves <;> exact hlocked ‹_›
    exact stack_setStack_of_ne hne _
  | @left u _ f' _ _ hstack hleft =>
    have hne : t ≠ u := by
      rintro rfl
      rw [h.stack_eq_cons] at hstack
      obtain ⟨rfl, rfl⟩ := List.cons.inj hstack
      rcases hstage with hstage | hstage <;> simp [hstage] at hleft
    exact stack_setStack_of_ne hne _

theorem nests_of_run (hrun : Run Steps {} acts m) (t : ι) : Nests (m.stack t) := by
  refine (hrun.invariant (I := fun m => (∀ t, Guarded m t) ∧ ∀ t, Nests (m.stack t)) ?_ ?_).2 t
  · rintro m a m' ⟨hguarded, h⟩ hs
    exact ⟨fun t => guarded_of_steps hguarded hs t, fun t => nests_of_steps hguarded h hs t⟩
  · exact ⟨fun t => ⟨rfl, List.nodup_nil, Nat.zero_le _⟩, fun t => trivial⟩

/-- **The calls that wait for themselves**: whatever callbacks call, a thread waits for a `lifecycle_mutex_`
that it holds only in a log line of a request, in one of the calls that do not look at `is_active_client`, and
not to publish a quality.  If such a call wants the mutex alone, it waits for ever. -/
theorem waits_of_run {stack : List (Frame κ)} {g : Frame κ} (hrun : Run Steps {} acts m)
    (h : WaitsForItself m t f g stack) :
    (g.entry = .request ∧ f.stage = .entering ∧ f.entry.guarded = false) ∧
      (f.entry.mode = .exclusive → ∀ acts' m', Run Steps m acts' m' → m'.stack t = m.stack t) := by
  have hentry := h.entry (nests_of_run hrun t)
  refine ⟨hentry, fun hmode acts' m' hrun' => ?_⟩
  have halone : f.waits = .exclusive := by simpa [Frame.waits, hentry.2.1] using hmode
  refine hrun'.invariant (I := fun m' => m'.stack t = m.stack t) (fun m₁ a m₂ hm₁ hs => ?_) rfl
  have h₁ : WaitsForItself m₁ t f g stack := { h with stack_eq_cons := hm₁.trans h.stack_eq_cons }
  exact (h₁.stack_eq halone hs).trans hm₁

/-- A log line of a request is handed to a callback, which sets the callback for the quality. -/
def careless : List (Act ℕ (Fin 2)) :=
  [.call 0 0 .request, .lock 0, .call 0 0 .setQualityChangeCallback]

theorem waits_careless : ∃ m : Machine ℕ (Fin 2), Run Steps {} careless m ∧
    ∀ acts' m', Run Steps m acts' m' → m'.stack 0 ≠ [] := by
  have h : (careless.foldlM Machine.act ({} : Machine ℕ (Fin 2))).map (fun m => m.stack 0) =
      some [⟨0, .setQualityChangeCallback, .entering⟩, ⟨0, .request, .inside⟩] := by
    decide
  obtain ⟨m, hm, hstack⟩ := Option.map_eq_some_iff.mp h
  refine ⟨m, .of_foldlM hm, fun acts' m' hrun' => ?_⟩
  rw [(waits_of_run (.of_foldlM hm) ⟨hstack, by decide, List.mem_singleton_self _, rfl, by decide⟩).2 rfl
    acts' m' hrun', hstack]
  exact List.cons_ne_nil _ _

end Reentry

end Client

end AsterNet
