import AsterNet.Client.MetricsQueue

/-!
# What becomes of the events in the metrics queue

`Stepped` lists what one step can come to.  `Locked` ties `lifecycle_mutex_` to the threads: from the stop
request on nothing is enqueued any more.  `Kept` is about the queue, the worker and the calls of the
collectors: an event goes by its ticket, the tickets of the calls go up, and what is behind is a call for
every event that was not displaced.  `Delivers` is what follows for the collectors.
-/

namespace AsterNet

namespace Client

namespace MetricsQueue

open DroppingQueue Transition

variable {ι κ : Type} [DecidableEq ι] [DecidableEq κ] {m m' : Machine ι κ} {a : Act ι κ} {t u : ι}

/-! ### Steps -/

/-- What one step can come to. -/
inductive Stepped (m : Machine ι κ) : Act ι κ → Machine ι κ → Prop
  | entered (t : ι) (mutex : SharedMutex ι) (hphase : m.phase t = .idle)
      (hdestroyed : m.destroyed = false) (hlock : m.mutex.lockShared t = some mutex) :
      Stepped m (.enter t) ({ m with mutex }.goto t .requesting)
  | enqueued (t : ι) (pending : PendingMetrics κ) (hphase : m.phase t = .requesting) :
      Stepped m (.enqueue t pending) ((m.enqueueMetrics pending).goto t .enqueued)
  | left (t : ι) (hphase : m.phase t = .requesting ∨ m.phase t = .enqueued) :
      Stepped m (.leave t) ({ m with mutex := m.mutex.unlockShared t }.goto t .idle)
  | destroyed (t : ι) (mutex : SharedMutex ι) (hphase : m.phase t = .idle)
      (hlock : m.mutex.lock t = some mutex) :
      Stepped m (.destroy t) ({ m with mutex, destroyed := true }.goto t .destroying)
  | stopped (t : ι) (hphase : m.phase t = .destroying) :
      Stepped m (.requestStop t) ({ m with stop := true }.goto t .stopped)
  | joining (t : ι) (hphase : m.phase t = .stopped) :
      Stepped m (.beginJoin t) ({ m with mutex := m.mutex.unlock }.goto t .joining)
  | joined (t : ι) (mutex : SharedMutex ι) (hphase : m.phase t = .joining) (hended : m.worker = .ended)
      (hlock : m.mutex.lock t = some mutex) : Stepped m (.join t) ({ m with mutex }.goto t .joined)
  | ended (hwaiting : m.worker = .waiting) (hqueue : m.queue = []) (hstop : m.stop = true) :
      Stepped m .wake { m with worker := .ended }
  | took (front : PendingMetrics κ) (rest : List (PendingMetrics κ)) (hwaiting : m.worker = .waiting)
      (hqueue : m.queue = front :: rest) :
      Stepped m .wake
        { m with queue := rest, worker := .took (ticket m.enqueued (front :: rest)) front }
  | reported (i : ℕ) (pending : PendingMetrics κ) (htook : m.worker = .took i pending) :
      Stepped m .reportShadow (m.reportShadow i pending)
  | skipped (i : ℕ) (pending : PendingMetrics κ) (throws : Bool)
      (hreported : m.worker = .reported i pending) (hown : pending.ownCollector m.shadow = none) :
      Stepped m (.reportCollector throws) { m with worker := .waiting }
  | called (i : ℕ) (pending : PendingMetrics κ) (collector : κ) (throws : Bool)
      (hreported : m.worker = .reported i pending)
      (hown : pending.ownCollector m.shadow = some collector) :
      Stepped m (.reportCollector throws)
        { m with
          collectorCalls := m.collectorCalls ++ [⟨i, collector, pending.metrics, throws⟩]
          worker := .waiting }

theorem stepped_of_wake (hwaiting : m.worker = .waiting) (hwake : (m.stop || !m.queue.isEmpty) = true) :
    Stepped m .wake m.wake := by
  unfold Machine.wake
  split
  · rename_i hqueue
    have hstop : m.stop = true := by simpa [hqueue] using hwake
    rw [if_pos hstop]
    exact .ended hwaiting hqueue hstop
  · rename_i front rest hqueue
    exact .took front rest hwaiting hqueue

theorem stepped_of_reportCollector {i : ℕ} {pending : PendingMetrics κ} (throws : Bool)
    (hreported : m.worker = .reported i pending) :
    Stepped m (.reportCollector throws) (m.reportCollector i pending throws) := by
  unfold Machine.reportCollector
  cases hown : pending.ownCollector m.shadow with
  | none => exact .skipped i pending throws hreported hown
  | some collector => exact .called i pending collector throws hreported hown

theorem stepped_of_steps (h : Steps m a m') : Stepped m a m' := by
  unfold Steps Machine.act at h
  cases a with
  | enter t =>
    dsimp only at h
    split at h
    · rename_i hphase
      split_ifs at h with hdestroyed
      obtain ⟨mutex, hlock, rfl⟩ := Option.map_eq_some_iff.mp h
      exact .entered t mutex hphase (by simpa using hdestroyed) hlock
    · cases h
  | enqueue t pending =>
    dsimp only at h
    split at h
    · rename_i hphase
      obtain rfl := Option.some.inj h
      exact .enqueued t pending hphase
    · cases h
  | leave t =>
    dsimp only at h
    split at h
    · rename_i hphase
      obtain rfl := Option.some.inj h
      exact .left t (.inl hphase)
    · rename_i hphase
      obtain rfl := Option.some.inj h
      exact .left t (.inr hphase)
    · cases h
  | destroy t =>
    dsimp only at h
    split at h
    · rename_i hphase
      split_ifs at h
      obtain ⟨mutex, hlock, rfl⟩ := Option.map_eq_some_iff.mp h
      exact .destroyed t mutex hphase hlock
    · cases h
  | requestStop t =>
    dsimp only at h
    split at h
    · rename_i hphase
      obtain rfl := Option.some.inj h
      exact .stopped t hphase
    · cases h
  | beginJoin t =>
    dsimp only at h
    split at h
    · rename_i hphase
      obtain rfl := Option.some.inj h
      exact .joining t hphase
    · cases h
  | join t =>
    dsimp only at h
    split at h
    · rename_i hphase hended
      obtain ⟨mutex, hlock, rfl⟩ := Option.map_eq_some_iff.mp h
      exact .joined t mutex hphase hended hlock
    · cases h
  | wake =>
    dsimp only at h
    split at h
    · rename_i hwaiting
      split_ifs at h with hwake
      obtain rfl := Option.some.inj h
      exact stepped_of_wake hwaiting hwake
    · cases h
  | reportShadow =>
    dsimp only at h
    split at h
    · rename_i i pending htook
      obtain rfl := Option.some.inj h
      exact .reported i pending htook
    · cases h
  | reportCollector throws =>
    dsimp only at h
    split at h
    · rename_i i pending hreported
      obtain rfl := Option.some.inj h
      exact stepped_of_reportCollector throws hreported
    · cases h

/-! ### The threads -/

/-- The lock is held as the threads know, and beside the destructor nobody is in a request. -/
structure Locked (m : Machine ι κ) : Prop where
  tied : m.mutex.Tied fun t => (m.phase t).mode
  destroyed : ∀ t, (m.phase t).destroys = true → m.destroyed = true
  nobody : m.destroyed = true → ∀ t, (m.phase t).mode ≠ .shared
  stop : m.stop = true → m.destroyed = true

namespace Locked

omit [DecidableEq ι] [DecidableEq κ] in
theorem init (shadow : κ) : Locked (init ι shadow) :=
  ⟨⟨fun t => by simp [MetricsQueue.init, Phase.mode], fun t => by simp [MetricsQueue.init, Phase.mode]⟩,
    fun t h => by simp [MetricsQueue.init, Phase.destroys] at h, by simp [MetricsQueue.init],
    by simp [MetricsQueue.init]⟩

omit [DecidableEq κ] in
theorem mode_goto (t : ι) (p : Phase) : (fun u => ((m.goto t p).phase u).mode) =
    Function.update (fun u => (m.phase u).mode) t p.mode := by
  funext u
  rcases eq_or_ne u t with rfl | hne
  · simp [Machine.goto]
  · simp [Machine.goto, hne]

omit [DecidableEq κ] in
/-- A thread moves on, and the lock with it. -/
theorem goto (h : Locked m) {p : Phase}
    (htied : m'.mutex.Tied (Function.update (fun u => (m.phase u).mode) t p.mode))
    (hphase : m'.phase = m.phase) (hdestroyed : m'.destroyed = m.destroyed) (hstop : m'.stop = m.stop)
    (hdestroys : p.destroys = true → m.destroyed = true)
    (hshared : p.mode = .shared → m.destroyed = false) : Locked (m'.goto t p) := by
  -- the phases of `t` change, and its hold of the lock with them
  refine ⟨?_, ?_, ?_, ?_⟩
  · rw [mode_goto, hphase]
    exact htied
  · intro u hu
    show m'.destroyed = true
    rw [hdestroyed]
    rcases eq_or_ne u t with rfl | hne
    · exact hdestroys (by simpa [Machine.goto] using hu)
    · exact h.destroyed u (by simpa [Machine.goto, hne, hphase] using hu)
  -- nobody shares the lock once the queue is being destroyed
  · intro hgone u hu
    have hgone' : m.destroyed = true := by
      rw [← hdestroyed]
      exact hgone
    rcases eq_or_ne u t with rfl | hne
    · have hnot := hshared (by simpa [Machine.goto] using hu)
      rw [hgone'] at hnot
      cases hnot
    · exact h.nobody hgone' u (by simpa [Machine.goto, hne, hphase] using hu)
  · intro hstopped
    show m'.destroyed = true
    rw [hdestroyed]
    apply h.stop
    rw [← hstop]
    exact hstopped

omit [DecidableEq κ] in
/-- The lock is not touched when the way it is held stays the same. -/
theorem tied_of_mode_eq (h : Locked m) {p : Phase} (hmode : p.mode = (m.phase t).mode) :
    m.mutex.Tied (Function.update (fun u => (m.phase u).mode) t p.mode) := by
  rw [hmode, Function.update_eq_self]
  exact h.tied

/-- **One step.** -/
theorem step (h : Locked m) (hs : Stepped m a m') : Locked m' := by
  cases hs with
  | entered t mutex hphase hdestroyed hlock =>
    exact h.goto (h.tied.lockShared hlock).1 rfl rfl rfl (fun hd => by cases hd) fun _ => hdestroyed
  | enqueued t pending hphase =>
    -- the thread keeps its share of the lock, so nobody is destroying the queue
    have hmode : (m.phase t).mode = .shared := by rw [hphase]; rfl
    refine h.goto (h.tied_of_mode_eq hmode.symm) rfl rfl rfl (fun hd => by cases hd) fun _ => ?_
    rw [← Bool.not_eq_true]
    exact fun hgone => h.nobody hgone t hmode
  | left t hphase =>
    have hmode : (m.phase t).mode = .shared := by
      rcases hphase with hphase | hphase
      · rw [hphase]
        rfl
      · rw [hphase]
        rfl
    exact h.goto (h.tied.unlockShared hmode) rfl rfl rfl (fun hd => by cases hd) fun hf => by cases hf
  | destroyed t mutex hphase hlock =>
    -- the destroyer has the lock alone, so no report is under way
    obtain ⟨htied, hfree⟩ := h.tied.lock hlock
    refine ⟨?_, fun _ _ => rfl, fun _ u hu => ?_, fun _ => rfl⟩
    · rw [mode_goto]
      exact htied
    · rcases eq_or_ne u t with rfl | hne
      · simp [Machine.goto, Phase.mode] at hu
      · have hu' : (m.phase u).mode = .shared := by simpa [Machine.goto, hne] using hu
        rw [hfree u] at hu'
        cases hu'
  | stopped t hphase =>
    -- `stop` is asked for by the destroyer, under its lock
    have hgone : m.destroyed = true := h.destroyed t (by rw [hphase]; rfl)
    have hmode : Phase.stopped.mode = (m.phase t).mode := by rw [hphase]; rfl
    refine ⟨?_, fun _ _ => hgone, fun _ u hu => ?_, fun _ => hgone⟩
    · rw [mode_goto]
      exact h.tied_of_mode_eq hmode
    · rcases eq_or_ne u t with rfl | hne
      · simp [Machine.goto, Phase.mode] at hu
      · exact h.nobody hgone u (by simpa [Machine.goto, hne] using hu)
  | joining t hphase =>
    have hgone : m.destroyed = true := h.destroyed t (by rw [hphase]; rfl)
    have hmode : (m.phase t).mode = .exclusive := by rw [hphase]; rfl
    exact h.goto (h.tied.unlock hmode) rfl rfl rfl (fun _ => hgone) fun hf => by cases hf
  | joined t mutex hphase hended hlock =>
    have hgone : m.destroyed = true := h.destroyed t (by rw [hphase]; rfl)
    exact h.goto (h.tied.lock hlock).1 rfl rfl rfl (fun _ => hgone) fun hf => by cases hf
  -- the worker never touches the lock
  | ended => exact ⟨h.tied, h.destroyed, h.nobody, h.stop⟩
  | took => exact ⟨h.tied, h.destroyed, h.nobody, h.stop⟩
  | reported => exact ⟨h.tied, h.destroyed, h.nobody, h.stop⟩
  | skipped => exact ⟨h.tied, h.destroyed, h.nobody, h.stop⟩
  | called => exact ⟨h.tied, h.destroyed, h.nobody, h.stop⟩

omit [DecidableEq ι] [DecidableEq κ] in
/-- After the stop request nobody is in a request. -/
theorem not_requesting_of_stop (h : Locked m) (hstop : m.stop = true) : m.phase t ≠ .requesting := by
  intro hphase
  exact h.nobody (h.stop hstop) t (by rw [hphase]; rfl)

end Locked

/-! ### The queue and the worker -/

/-- The ticket that was taken and of which nobody was told. -/
def Worker.untold {κ : Type} : Worker κ → List ℕ
  | .took i _ => [i]
  | _ => []

/-- The tickets that were taken. -/
def Machine.taken {ι κ : Type} (m : Machine ι κ) : List ℕ :=
  m.shadowCalls.map ShadowCall.ticket ++ m.worker.untold

/-- The events go by their tickets. -/
structure Kept (m : Machine ι κ) : Prop where
  accounts : Accounts kMaxQueuedMetrics m.enqueued m.queue m.taken m.displaced
  ended : m.worker = .ended → m.stop = true ∧ m.queue = []
  took : ∀ i pending, m.worker = .took i pending → m.enqueued[i]? = some pending
  reported : ∀ i pending, m.worker = .reported i pending → m.enqueued[i]? = some pending ∧
    (∃ call ∈ m.shadowCalls, call.ticket = i) ∧ ∀ own ∈ m.collectorCalls, own.ticket < i
  shadow_of : ∀ call ∈ m.shadowCalls, ∃ pending, m.enqueued[call.ticket]? = some pending ∧
    pending.metrics = call.metrics
  own_of : ∀ own ∈ m.collectorCalls, ∃ pending, m.enqueued[own.ticket]? = some pending ∧
    pending.ownCollector m.shadow = some own.collector ∧ pending.metrics = own.metrics
  own_lt : (m.collectorCalls.map CollectorCall.ticket).Pairwise (· < ·)
  own_after : ∀ own ∈ m.collectorCalls, ∃ call ∈ m.shadowCalls, call.ticket = own.ticket
  own_done : ∀ call ∈ m.shadowCalls, (∀ pending, m.worker ≠ .reported call.ticket pending) →
    ∀ pending c, m.enqueued[call.ticket]? = some pending → pending.ownCollector m.shadow = some c →
      ∃ own ∈ m.collectorCalls, own.ticket = call.ticket ∧ own.collector = c
  collector_eq : m.collector = Monitor.reported maxEvents (m.shadowCalls.map ShadowCall.metrics)

/-- An event keeps its ticket when more come in. -/
theorem getElem?_concat {α : Type*} {l : List α} {i : ℕ} {x : α} (h : l[i]? = some x) (y : α) :
    (l ++ [y])[i]? = some x := by
  rw [List.getElem?_append_left (List.getElem?_eq_some_iff.mp h).1]
  exact h

namespace Kept

omit [DecidableEq ι] in
theorem init (shadow : κ) : Kept (init ι shadow) where
  accounts := Accounts.nil
  ended h := by cases h
  took i pending h := by cases h
  reported i pending h := by cases h
  shadow_of := by simp [MetricsQueue.init]
  own_of := by simp [MetricsQueue.init]
  own_lt := by simp [MetricsQueue.init]
  own_after := by simp [MetricsQueue.init]
  own_done := by simp [MetricsQueue.init]
  collector_eq := rfl

/-- A thread moves on, and nothing else happens. -/
theorem moved (h : Kept m) (mutex : SharedMutex ι) (destroyed stop : Bool) (t : ι) (p : Phase)
    (hstop : m.stop = true → stop = true) : Kept ({ m with mutex, destroyed, stop }.goto t p) where
  accounts := h.accounts
  ended hended := ⟨hstop (h.ended hended).1, (h.ended hended).2⟩
  took := h.took
  reported := h.reported
  shadow_of := h.shadow_of
  own_of := h.own_of
  own_lt := h.own_lt
  own_after := h.own_after
  own_done := h.own_done
  collector_eq := h.collector_eq

omit [DecidableEq ι] in
/-- An event comes in before the worker ends. -/
theorem enqueue (h : Kept m) (hnot : m.worker ≠ .ended) (pending : PendingMetrics κ) :
    Kept (m.enqueueMetrics pending) where
  accounts := h.accounts.push (by decide) pending
  ended hended := absurd hended hnot
  took i pending' htook := getElem?_concat (h.took i pending' htook) pending
  reported i pending' hreported := by
    obtain ⟨hat, hcalls⟩ := h.reported i pending' hreported
    exact ⟨getElem?_concat hat pending, hcalls⟩
  shadow_of call hcall := by
    obtain ⟨pending', hat, hmetrics⟩ := h.shadow_of call hcall
    exact ⟨pending', getElem?_concat hat pending, hmetrics⟩
  own_of own hown := by
    obtain ⟨pending', hat, hcollector⟩ := h.own_of own hown
    exact ⟨pending', getElem?_concat hat pending, hcollector⟩
  own_lt := h.own_lt
  own_after := h.own_after
  own_done call hcall hworker pending' c hat hcollector := by
    obtain ⟨before, hbefore, -⟩ := h.shadow_of call hcall
    obtain rfl : before = pending' := Option.some.inj ((getElem?_concat hbefore pending).symm.trans hat)
    exact h.own_done call hcall hworker before c hbefore hcollector
  collector_eq := h.collector_eq

omit [DecidableEq ι] [DecidableEq κ] in
/-- A worker that waits has told of all it took. -/
theorem taken_of_waiting (hwaiting : m.worker = .waiting) :
    m.taken = m.shadowCalls.map ShadowCall.ticket := by
  rw [Machine.taken, hwaiting]
  exact List.append_nil _

omit [DecidableEq ι] in
/-- The worker ends. -/
theorem endWorker (h : Kept m) (hwaiting : m.worker = .waiting) (hqueue : m.queue = [])
    (hstop : m.stop = true) : Kept { m with worker := .ended } where
  accounts := by
    have haccounts := h.accounts
    rw [taken_of_waiting hwaiting] at haccounts
    simpa [Machine.taken, Worker.untold] using haccounts
  ended _ := ⟨hstop, hqueue⟩
  took i pending htook := by cases htook
  reported i pending hreported := by cases hreported
  shadow_of := h.shadow_of
  own_of := h.own_of
  own_lt := h.own_lt
  own_after := h.own_after
  own_done call hcall _ := h.own_done call hcall (by simp [hwaiting])
  collector_eq := h.collector_eq

omit [DecidableEq ι] in
/-- The worker takes the front. -/
theorem take (h : Kept m) {front : PendingMetrics κ} {rest : List (PendingMetrics κ)}
    (hwaiting : m.worker = .waiting) (hqueue : m.queue = front :: rest) :
    Kept { m with queue := rest, worker := .took (ticket m.enqueued (front :: rest)) front } where
  accounts := by
    have haccounts := h.accounts
    rw [taken_of_waiting hwaiting, hqueue] at haccounts
    exact haccounts.pop
  ended hended := by cases hended
  took i pending htook := by
    have haccounts := h.accounts
    rw [hqueue] at haccounts
    obtain ⟨rfl, rfl⟩ := Worker.took.inj htook
    exact haccounts.getElem?_ticket
  reported i pending hreported := by cases hreported
  shadow_of := h.shadow_of
  own_of := h.own_of
  own_lt := h.own_lt
  own_after := h.own_after
  own_done call hcall _ := h.own_done call hcall (by simp [hwaiting])
  collector_eq := h.collector_eq

omit [DecidableEq ι] in
/-- What was told before has an earlier ticket. -/
theorem told_lt (h : Kept m) {i : ℕ} {pending : PendingMetrics κ} (htook : m.worker = .took i pending)
    {call : ShadowCall} (hcall : call ∈ m.shadowCalls) : call.ticket < i := by
  have htaken := h.accounts.taken_lt
  rw [Machine.taken, htook] at htaken
  obtain ⟨-, -, hlt⟩ := List.pairwise_append.mp htaken
  exact hlt call.ticket (List.mem_map_of_mem hcall) i List.mem_cons_self

omit [DecidableEq ι] in
/-- The built-in collector is told. -/
theorem reportShadow (h : Kept m) {i : ℕ} {pending : PendingMetrics κ}
    (htook : m.worker = .took i pending) : Kept (m.reportShadow i pending) where
  accounts := by
    -- the event goes out of the worker's hands and to the collector
    have haccounts := h.accounts
    rw [Machine.taken, htook] at haccounts
    simpa [Machine.taken, Machine.reportShadow, Worker.untold] using haccounts
  ended hended := by cases hended
  took i' pending' htook' := by cases htook'
  reported i' pending' hreported := by
    obtain ⟨rfl, rfl⟩ := Worker.reported.inj hreported
    refine ⟨h.took i pending htook, ⟨⟨i, pending.metrics⟩, ?_, rfl⟩, ?_⟩
    · exact List.mem_append_right _ List.mem_cons_self
    intro own hown
    -- no collector was called for it before
    obtain ⟨call, hcall, hticket⟩ := h.own_after own hown
    rw [← hticket]
    exact h.told_lt htook hcall
  shadow_of call hcall := by
    rcases List.mem_append.mp hcall with hcall | hcall
    · exact h.shadow_of call hcall
    · rw [List.mem_singleton.mp hcall]
      exact ⟨pending, h.took i pending htook, rfl⟩
  own_of := h.own_of
  own_lt := h.own_lt
  own_after own hown := by
    obtain ⟨call, hcall, hticket⟩ := h.own_after own hown
    exact ⟨call, List.mem_append_left _ hcall, hticket⟩
  own_done call hcall hworker := by
    rcases List.mem_append.mp hcall with hcall | hcall
    · exact h.own_done call hcall (by simp [htook])
    · -- of the last one the worker is not done
      rw [List.mem_singleton.mp hcall] at hworker
      exact absurd rfl (hworker pending)
  collector_eq := by
    show Monitor.reportRequest m.collector pending.metrics =
      Monitor.reported maxEvents
        ((m.shadowCalls ++ [ShadowCall.mk i pending.metrics]).map ShadowCall.metrics)
    rw [List.map_append, List.map_singleton, Monitor.reported_append, h.collector_eq]

omit [DecidableEq ι] in
/-- No other collector is to be told. -/
theorem skip (h : Kept m) {i : ℕ} {pending : PendingMetrics κ} (hreported : m.worker = .reported i pending)
    (hown : pending.ownCollector m.shadow = none) : Kept { m with worker := .waiting } where
  accounts := by
    have haccounts := h.accounts
    rw [Machine.taken, hreported] at haccounts
    simpa [Machine.taken, Worker.untold] using haccounts
  ended hended := by cases hended
  took i' pending' htook := by cases htook
  reported i' pending' hreported' := by cases hreported'
  shadow_of := h.shadow_of
  own_of := h.own_of
  own_lt := h.own_lt
  own_after := h.own_after
  own_done call hcall _ pending' c hat hcollector := by
    by_cases hlast : call.ticket = i
    · rw [hlast, (h.reported i pending hreported).1] at hat
      obtain rfl := Option.some.inj hat
      rw [hown] at hcollector
      cases hcollector
    · refine h.own_done call hcall (fun pending'' hworker => hlast ?_) pending' c hat hcollector
      exact (Worker.reported.inj (hworker.symm.trans hreported)).1
  collector_eq := h.collector_eq

omit [DecidableEq ι] in
/-- The other collector is told. -/
theorem call (h : Kept m) {i : ℕ} {pending : PendingMetrics κ} {collector : κ} {throws : Bool}
    (hreported : m.worker = .reported i pending) (hown : pending.ownCollector m.shadow = some collector) :
    Kept { m with
      collectorCalls := m.collectorCalls ++ [⟨i, collector, pending.metrics, throws⟩]
      worker := .waiting } where
  accounts := by
    have haccounts := h.accounts
    rw [Machine.taken, hreported] at haccounts
    simpa [Machine.taken, Worker.untold] using haccounts
  ended hended := by cases hended
  took i' pending' htook := by cases htook
  reported i' pending' hreported' := by cases hreported'
  shadow_of := h.shadow_of
  own_of own hmem := by
    rcases List.mem_append.mp hmem with hmem | hmem
    · exact h.own_of own hmem
    · rw [List.mem_singleton.mp hmem]
      exact ⟨pending, (h.reported i pending hreported).1, hown, rfl⟩
  own_lt := by
    rw [List.map_append, List.map_singleton]
    refine List.pairwise_append.mpr ⟨h.own_lt, List.pairwise_singleton _ _, ?_⟩
    -- the calls go by tickets, which grow
    intro j hj k hk
    obtain ⟨own, hmem, rfl⟩ := List.mem_map.mp hj
    rw [List.mem_singleton.mp hk]
    exact (h.reported i pending hreported).2.2 own hmem
  own_after own hmem := by
    rcases List.mem_append.mp hmem with hmem | hmem
    · exact h.own_after own hmem
    · rw [List.mem_singleton.mp hmem]
      exact (h.reported i pending hreported).2.1
  own_done call hcall _ pending' c hat hcollector := by
    -- for this event it was just called, and for the others nothing changes
    by_cases hlast : call.ticket = i
    · rw [hlast, (h.reported i pending hreported).1] at hat
      obtain rfl := Option.some.inj hat
      rw [hown] at hcollector
      obtain rfl := Option.some.inj hcollector
      exact ⟨_, List.mem_append_right _ List.mem_cons_self, hlast.symm, rfl⟩
    · have hnot : ∀ pending'', m.worker ≠ .reported call.ticket pending'' := by
        intro pending'' hworker
        exact hlast (Worker.reported.inj (hworker.symm.trans hreported)).1
      obtain ⟨own, hmem, hsame⟩ := h.own_done call hcall hnot pending' c hat hcollector
      exact ⟨own, List.mem_append_left _ hmem, hsame⟩
  collector_eq := h.collector_eq

/-- **One step.** -/
theorem step (hlocked : Locked m) (h : Kept m) (hs : Stepped m a m') : Kept m' := by
  cases hs with
  | entered t mutex hphase hdestroyed hlock => exact h.moved mutex m.destroyed m.stop t .requesting id
  | enqueued t pending hphase =>
    -- a report is under way, so the worker was not asked to stop
    have hnot : m.worker ≠ .ended := by
      intro hended
      exact hlocked.not_requesting_of_stop (h.ended hended).1 hphase
    exact (h.enqueue hnot pending).moved m.mutex m.destroyed m.stop t .enqueued id
  | left t hphase => exact h.moved (m.mutex.unlockShared t) m.destroyed m.stop t .idle id
  | destroyed t mutex hphase hlock => exact h.moved mutex true m.stop t .destroying id
  | stopped t hphase => exact h.moved m.mutex m.destroyed true t .stopped fun _ => rfl
  | joining t hphase => exact h.moved m.mutex.unlock m.destroyed m.stop t .joining id
  | joined t mutex hphase hended hlock => exact h.moved mutex m.destroyed m.stop t .joined id
  | ended hwaiting hqueue hstop => exact h.endWorker hwaiting hqueue hstop
  | took front rest hwaiting hqueue => exact h.take hwaiting hqueue
  | reported i pending htook => exact h.reportShadow htook
  | skipped i pending throws hreported hown => exact h.skip hreported hown
  | called i pending collector throws hreported hown => exact h.call hreported hown

end Kept

/-- The worker has ended when the destructor goes on. -/
def JoinedEnded (m : Machine ι κ) : Prop := ∀ t, m.phase t = .joined → m.worker = .ended

omit [DecidableEq κ] in
theorem joinedEnded_goto (h : JoinedEnded m) {p : Phase} (hworker : m'.worker = m.worker)
    (hphase : m'.phase = m.phase) (hp : p = .joined → m.worker = .ended) : JoinedEnded (m'.goto t p) := by
  intro u hu
  show m'.worker = .ended
  rw [hworker]
  rcases eq_or_ne u t with rfl | hne
  · exact hp (by simpa [Machine.goto] using hu)
  · exact h u (by simpa [Machine.goto, hne, hphase] using hu)

omit [DecidableEq ι] [DecidableEq κ] in
/-- While the worker runs, no destructor is past the join. -/
theorem joinedEnded_of_ne (h : JoinedEnded m) (hphase : m'.phase = m.phase) (hne : m.worker ≠ .ended) :
    JoinedEnded m' := by
  intro u hu
  rw [hphase] at hu
  exact absurd (h u hu) hne

theorem joinedEnded_step (h : JoinedEnded m) (hs : Stepped m a m') : JoinedEnded m' := by
  cases hs with
  | entered => exact joinedEnded_goto h rfl rfl fun hp => by cases hp
  | enqueued => exact joinedEnded_goto h rfl rfl fun hp => by cases hp
  | left => exact joinedEnded_goto h rfl rfl fun hp => by cases hp
  | destroyed => exact joinedEnded_goto h rfl rfl fun hp => by cases hp
  | stopped => exact joinedEnded_goto h rfl rfl fun hp => by cases hp
  | joining => exact joinedEnded_goto h rfl rfl fun hp => by cases hp
  | joined t mutex hphase hended hlock => exact joinedEnded_goto h rfl rfl fun _ => hended
  | ended => exact fun _ _ => rfl
  | took front rest hwaiting hqueue => exact joinedEnded_of_ne h rfl (by simp [hwaiting])
  | reported i pending htook => exact joinedEnded_of_ne h rfl (by simp [htook])
  | skipped i pending throws hreported hown => exact joinedEnded_of_ne h rfl (by simp [hreported])
  | called i pending collector throws hreported hown =>
    exact joinedEnded_of_ne h rfl (by simp [hreported])

/-! ### Runs -/

theorem inv_of_run {shadow : κ} {acts : List (Act ι κ)} (hrun : Run Steps (init ι shadow) acts m) :
    Locked m ∧ Kept m ∧ JoinedEnded m := by
  refine Run.invariant (I := fun m => Locked m ∧ Kept m ∧ JoinedEnded m) ?_ hrun
    ⟨Locked.init shadow, Kept.init shadow, fun t ht => by cases ht⟩
  rintro m a m' ⟨hlocked, hkept, hjoined⟩ hs
  have hstepped := stepped_of_steps hs
  exact ⟨hlocked.step hstepped, hkept.step hlocked hstepped, joinedEnded_step hjoined hstepped⟩

/-- The collectors were told of an event, each the way it is to be. -/
structure Told (m : Machine ι κ) (i : ℕ) (pending : PendingMetrics κ) : Prop where
  shadow : ∃ call ∈ m.shadowCalls, call.ticket = i ∧ call.metrics = pending.metrics
  own : ∀ c, pending.ownCollector m.shadow = some c →
    ∃ own ∈ m.collectorCalls, own.ticket = i ∧ own.collector = c ∧ own.metrics = pending.metrics

/-- An event made room for a newer one: it was the oldest of a full queue. -/
def Displaced (m : Machine ι κ) (i : ℕ) : Prop :=
  ∃ d ∈ m.displaced, d.ticket = i ∧ d.queue.length = kMaxQueuedMetrics ∧ d.queue <+: m.enqueued.drop i

/-- An event has still its way to go. -/
def Underway (m : Machine ι κ) (i : ℕ) (pending : PendingMetrics κ) : Prop :=
  m.worker = .took i pending ∨ m.worker = .reported i pending ∨
    ∃ k, i = ticket m.enqueued m.queue + k ∧ m.queue[k]? = some pending

/-- What the queue is for. -/
structure Delivers (m : Machine ι κ) : Prop where
  bounded : m.queue.length ≤ kMaxQueuedMetrics
  /-- In the order they were enqueued, and each at most once, the built-in collector is told of events. -/
  shadow_lt : (m.shadowCalls.map ShadowCall.ticket).Pairwise (· < ·)
  shadow_of : ∀ call ∈ m.shadowCalls, ∃ pending, m.enqueued[call.ticket]? = some pending ∧
    pending.metrics = call.metrics
  /-- And so are the others, each of its own events. -/
  own_lt : (m.collectorCalls.map CollectorCall.ticket).Pairwise (· < ·)
  own_of : ∀ own ∈ m.collectorCalls, ∃ pending, m.enqueued[own.ticket]? = some pending ∧
    pending.ownCollector m.shadow = some own.collector ∧ pending.metrics = own.metrics
  accounted : ∀ i pending, m.enqueued[i]? = some pending →
    Told m i pending ∨ Displaced m i ∨ Underway m i pending
  not_displaced : ∀ i, Displaced m i → ∀ call ∈ m.shadowCalls, call.ticket ≠ i
  ended : m.worker = .ended → m.stop = true ∧ m.queue = [] ∧
    ∀ i pending, m.enqueued[i]? = some pending → Told m i pending ∨ Displaced m i
  joined : ∀ t, m.phase t = .joined → m.worker = .ended

namespace Kept

omit [DecidableEq ι] in
/-- Every event was told of, was displaced or is under way. -/
theorem accounted (h : Kept m) {i : ℕ} {pending : PendingMetrics κ} (hat : m.enqueued[i]? = some pending) :
    Told m i pending ∨ Displaced m i ∨ Underway m i pending := by
  -- an event that has left the queue was taken or displaced
  by_cases hgone : i < ticket m.enqueued m.queue
  · rcases (h.accounts.gone_iff i).mp hgone with htaken | ⟨d, hd, rfl⟩
    · rcases List.mem_append.mp htaken with htold | htook
      · obtain ⟨call, hcall, rfl⟩ := List.mem_map.mp htold
        obtain ⟨pending', hat', hmetrics⟩ := h.shadow_of call hcall
        obtain rfl : pending' = pending := Option.some.inj (hat'.symm.trans hat)
        -- a report that is half told is still under way
        by_cases hreported : m.worker = .reported call.ticket pending'
        · exact .inr (.inr (.inr (.inl hreported)))
        refine .inl ⟨⟨call, hcall, rfl, hmetrics.symm⟩, fun c hc => ?_⟩
        have hnot : ∀ pending'', m.worker ≠ .reported call.ticket pending'' := by
          intro pending'' hworker
          have hat'' := (h.reported _ _ hworker).1
          rw [hat] at hat''
          obtain rfl := Option.some.inj hat''
          exact hreported hworker
        obtain ⟨own, hown, hticket, hcollector⟩ := h.own_done call hcall hnot pending' c hat hc
        obtain ⟨pending'', hat'', -, hmetrics'⟩ := h.own_of own hown
        rw [hticket, hat] at hat''
        obtain rfl := Option.some.inj hat''
        exact ⟨own, hown, hticket, hcollector, hmetrics'.symm⟩
      · -- the worker has it in its hands
        cases hworker : m.worker with
        | took j pending' =>
          rw [hworker] at htook
          obtain rfl : i = j := List.mem_singleton.mp htook
          have hat' := h.took i pending' hworker
          rw [hat] at hat'
          obtain rfl := Option.some.inj hat'
          exact .inr (.inr (.inl hworker))
        | waiting =>
          rw [hworker] at htook
          cases htook
        | reported j pending' =>
          rw [hworker] at htook
          cases htook
        | ended =>
          rw [hworker] at htook
          cases htook
    · exact .inr (.inl ⟨d, hd, rfl, h.accounts.oldest d hd⟩)
  -- one that has not stands in the queue at its ticket
  · obtain ⟨k, rfl⟩ := Nat.exists_eq_add_of_le (Nat.not_lt.mp hgone)
    refine .inr (.inr (.inr (.inr ⟨k, rfl, ?_⟩)))
    rw [h.accounts.queue_eq_drop, List.getElem?_drop]
    exact hat

omit [DecidableEq ι] in
theorem not_displaced (h : Kept m) {i : ℕ} (hi : Displaced m i) {call : ShadowCall}
    (hcall : call ∈ m.shadowCalls) : call.ticket ≠ i := by
  rintro rfl
  obtain ⟨d, hd, hticket, -⟩ := hi
  refine h.accounts.apart d hd ?_
  rw [hticket]
  exact List.mem_append_left _ (List.mem_map_of_mem hcall)

omit [DecidableEq ι] in
theorem shadow_lt (h : Kept m) : (m.shadowCalls.map ShadowCall.ticket).Pairwise (· < ·) :=
  (List.pairwise_append.mp h.accounts.taken_lt).1

end Kept

/-! ### The worker alone -/

end MetricsQueue

end Client

end AsterNet
