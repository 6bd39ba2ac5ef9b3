import AsterNet.Lib.Transition
import AsterNet.Platform.EventLoop

/-!
# The one-shot timer

`OneShot`: a callback runs at most once, when its delay has passed, while no later call has replaced it,
and at the first poll that finds it due.  `oneShot_iff` is the exact condition on a run, `Timely` at every
step: what the callbacks before the timer's turn schedule is due by then, and a poll that finds a callback
due has the timer among its events or replaces the callback.

Two kinds of steps are not timely.  The events of a poll are from before its callbacks, so a callback that
one of them schedules runs on the expiration of the one it replaces (`not_oneShot_stale`).  A delay of zero
disarms the timer, and more than `maxEvents` ready descriptors can leave it out.
-/

namespace AsterNet

namespace EpollEventLoop

open Transition

/-! ### The condition -/

/-- When the delay has passed. -/
def Call.due (call : Call) : ℕ :=
  call.now + call.delayMs * 1000000

/-- The callback that an event schedules. -/
def Event.scheduled? : Event → Option Scheduled
  | .scheduled cb => some cb
  | .waited _ => none
  | .ran _ _ => none
  | .returned => none

/-- The callback that was scheduled last. -/
def current (log : List Event) : Option Scheduled :=
  (log.filterMap Event.scheduled?).getLast?

/-- A callback runs once, due, and as the last one scheduled.  When a poll returns, the callback that was
due when it began has run, or the poll has replaced it. -/
def Explained (past : List Event) : Event → Prop
  | .scheduled _ => True
  | .waited _ => True
  | .ran cb now => current past = some cb ∧ (∀ t, .ran cb t ∉ past) ∧ cb.due ≤ now
  | .returned => ∀ before now during, past = before ++ .waited now :: during →
      (∀ t, .waited t ∉ during) → ∀ cb, current before = some cb → cb.due ≤ now →
        (∃ t, .ran cb t ∈ past) ∨ ∃ cb', .scheduled cb' ∈ during

/-- The timer is one-shot. -/
def OneShot (log : List Event) : Prop :=
  Justified Explained log

/-- What the callbacks before the timer's turn schedule last is due by then, and a callback that is due has
the timer in the batch, or a call of the batch replaces it. -/
def Timely (st : State) : Op → Prop
  | .scheduleTimer _ => True
  | .pollOnce now batch =>
    (∀ before turn calls after, batch = before ++ .timer turn calls :: after →
      ∀ call, (before.flatMap Ready.calls).getLast? = some call → call.due ≤ turn) ∧
    ∀ cb, st.timerCb = some cb → cb.due ≤ now →
      batch.any Ready.isTimer = true ∨ batch.flatMap Ready.calls ≠ []

/-! ### The invariant -/

/-- The callback the loop holds is the last one scheduled and has not run, and the timer is set to it. -/
structure Inv (st : State) : Prop where
  oneShot : OneShot st.log
  held : ∀ cb, st.timerCb = some cb → current st.log = some cb ∧ (∀ t, .ran cb t ∉ st.log) ∧
    st.expires = timerfdSettime cb.now (itValue cb.delayMs) ∧ cb.id < st.next
  idle : st.timerCb = none → ∀ cb, current st.log = some cb → ∃ t, .ran cb t ∈ st.log
  fresh : ∀ cb t, .ran cb t ∈ st.log → cb.id < st.next

theorem inv_init : Inv {} where
  oneShot := justified_nil
  held := by simp
  idle := by simp [current]
  fresh := by simp

theorem itValue_eq (delayMs : ℕ) : itValue delayMs = delayMs * 1000000 := by
  unfold itValue
  omega

/-- An expiration is not early. -/
theorem due_of_readable {st : State} {cb : Scheduled} {now : ℕ}
    (h : st.expires = timerfdSettime cb.now (itValue cb.delayMs)) (hread : st.readable now = true) :
    cb.due ≤ now := by
  rw [State.readable, h, timerfdSettime, itValue_eq] at hread
  split_ifs at hread
  exact of_decide_eq_true hread

theorem current_append_scheduled {log : List Event} {cb : Scheduled} :
    current (log ++ [.scheduled cb]) = some cb := by
  simp [current, Event.scheduled?]

theorem current_append {log : List Event} {e : Event} (he : e.scheduled? = none) :
    current (log ++ [e]) = current log := by
  simp [current, he]

/-- A call keeps the invariant. -/
theorem inv_scheduleTimer {st : State} (call : Call) (h : Inv st) : Inv (scheduleTimer st call) where
  oneShot := justified_append_singleton_iff.mpr ⟨h.oneShot, trivial⟩
  held := by
    rintro cb hcb
    obtain rfl := Option.some.inj hcb
    refine ⟨current_append_scheduled, fun t hran => ?_, rfl, Nat.lt_succ_self _⟩
    rcases List.mem_append.mp hran with hran | hran
    · exact absurd (h.fresh _ t hran) (Nat.lt_irrefl _)
    · cases List.mem_singleton.mp hran
  idle := by
    intro hcb
    cases hcb
  fresh := by
    intro cb t hran
    rcases List.mem_append.mp hran with hran | hran
    · exact Nat.lt_succ_of_lt (h.fresh cb t hran)
    · cases List.mem_singleton.mp hran

/-- Calls keep the invariant. -/
theorem inv_foldl {st : State} (calls : List Call) (h : Inv st) : Inv (calls.foldl scheduleTimer st) := by
  induction calls generalizing st with
  | nil => exact h
  | cons call calls ih => exact ih (inv_scheduleTimer call h)

/-- The callback runs in its turn. -/
def runTimer (st : State) (cb : Scheduled) (now : ℕ) : State :=
  { readTimer st now with timerCb := none, clock := now, log := st.log ++ [.ran cb now] }

theorem log_readTimer {st : State} {now : ℕ} : (readTimer st now).log = st.log := by
  unfold readTimer
  split_ifs <;> rfl

theorem timerCb_readTimer {st : State} {now : ℕ} : (readTimer st now).timerCb = st.timerCb := by
  unfold readTimer
  split_ifs <;> rfl

theorem next_readTimer {st : State} {now : ℕ} : (readTimer st now).next = st.next := by
  unfold readTimer
  split_ifs <;> rfl

/-- The turn of the timer. -/
theorem dispatch_timer {st : State} {now : ℕ} {calls : List Call} :
    (st.timerCb = none ∧ dispatch st (.timer now calls) = { readTimer st now with clock := now }) ∨
      ∃ cb, st.timerCb = some cb ∧
        dispatch st (.timer now calls) = calls.foldl scheduleTimer (runTimer st cb now) := by
  unfold dispatch
  dsimp only
  rw [timerCb_readTimer, log_readTimer]
  cases st.timerCb with
  | none => exact .inl ⟨rfl, rfl⟩
  | some cb => exact .inr ⟨cb, rfl, rfl⟩

/-- A callback that runs when it is due keeps the invariant. -/
theorem inv_runTimer {st : State} {cb : Scheduled} {now : ℕ} (h : Inv st) (hcb : st.timerCb = some cb)
    (hdue : cb.due ≤ now) : Inv (runTimer st cb now) := by
  obtain ⟨hcurrent, hnot, -, hid⟩ := h.held cb hcb
  refine ⟨?_, fun cb' hcb' => ?_, fun _ cb' hcb' => ?_, fun cb' t hran => ?_⟩
  · exact justified_append_singleton_iff.mpr ⟨h.oneShot, hcurrent, hnot, hdue⟩
  · cases hcb'
  · change current (st.log ++ [.ran cb now]) = some cb' at hcb'
    rw [current_append rfl, hcurrent] at hcb'
    obtain rfl := Option.some.inj hcb'
    exact ⟨now, List.mem_append_right _ (List.mem_singleton_self _)⟩
  · change cb'.id < (readTimer st now).next
    rw [next_readTimer]
    rcases List.mem_append.mp hran with hran | hran
    · exact h.fresh cb' t hran
    · cases List.mem_singleton.mp hran
      exact hid

/-- The turn of the timer keeps the invariant when no callback runs early. -/
theorem inv_dispatch_timer {st : State} {now : ℕ} {calls : List Call} (h : Inv st)
    (hdue : ∀ cb, st.timerCb = some cb → cb.due ≤ now) : Inv (dispatch st (.timer now calls)) := by
  obtain ⟨hcb, heq⟩ | ⟨cb, hcb, heq⟩ := @dispatch_timer st now calls
  · rw [heq]
    refine ⟨?_, fun cb' hcb' => ?_, fun _ => ?_, fun cb' t hran => ?_⟩
    · change OneShot (readTimer st now).log
      rw [log_readTimer]
      exact h.oneShot
    · change (readTimer st now).timerCb = some cb' at hcb'
      rw [timerCb_readTimer, hcb] at hcb'
      cases hcb'
    · change ∀ cb', current (readTimer st now).log = some cb' → ∃ t, .ran cb' t ∈ (readTimer st now).log
      rw [log_readTimer]
      exact h.idle hcb
    · change Event.ran cb' t ∈ (readTimer st now).log at hran
      change cb'.id < (readTimer st now).next
      rw [next_readTimer]
      rw [log_readTimer] at hran
      exact h.fresh cb' t hran
  · rw [heq]
    exact inv_foldl calls (inv_runTimer h hcb (hdue cb hcb))

/-! ### What a poll logs -/

/-- The log grows by the events of one poll, those after `epoll_wait`. -/
def Grows (st st' : State) (es : List Event) : Prop :=
  st'.log = st.log ++ es ∧ ∀ t, .waited t ∉ es

theorem Grows.trans {st st' st'' : State} {es es' : List Event} (h : Grows st st' es)
    (h' : Grows st' st'' es') : Grows st st'' (es ++ es') := by
  refine ⟨by rw [h'.1, h.1, List.append_assoc], fun t ht => ?_⟩
  rcases List.mem_append.mp ht with ht | ht
  · exact h.2 t ht
  · exact h'.2 t ht

theorem Grows.mem {st st' : State} {es : List Event} {e : Event} (h : Grows st st' es)
    (he : e ∈ st.log) : e ∈ st'.log := by
  rw [h.1]
  exact List.mem_append_left _ he

/-- Calls log that they schedule a callback. -/
theorem grows_foldl (st : State) (calls : List Call) :
    ∃ es, Grows st (calls.foldl scheduleTimer st) es ∧ (calls ≠ [] → ∃ cb, .scheduled cb ∈ es) := by
  induction calls generalizing st with
  | nil => exact ⟨[], ⟨(List.append_nil _).symm, by simp⟩, fun h => absurd rfl h⟩
  | cons call calls ih =>
    obtain ⟨es, hes, -⟩ := ih (scheduleTimer st call)
    have hone : Grows st (scheduleTimer st call) [.scheduled { toCall := call, id := st.next }] :=
      ⟨rfl, by simp⟩
    exact ⟨_, hone.trans hes, fun _ => ⟨_, List.mem_cons_self⟩⟩

theorem grows_dispatch (st : State) (ready : Ready) : ∃ es, Grows st (dispatch st ready) es := by
  cases ready with
  | fd calls =>
    obtain ⟨es, hes, -⟩ := grows_foldl st calls
    exact ⟨es, hes⟩
  | timer now calls =>
    obtain ⟨hcb, heq⟩ | ⟨cb, hcb, heq⟩ := @dispatch_timer st now calls
    · refine ⟨[], ?_, by simp⟩
      rw [heq, List.append_nil]
      exact log_readTimer
    · obtain ⟨es, hes, -⟩ := grows_foldl (runTimer st cb now) calls
      have hone : Grows st (runTimer st cb now) [.ran cb now] := ⟨rfl, by simp⟩
      rw [heq]
      exact ⟨_, hone.trans hes⟩

theorem grows_batch (st : State) (batch : List Ready) : ∃ es, Grows st (batch.foldl dispatch st) es := by
  induction batch generalizing st with
  | nil => exact ⟨[], (List.append_nil _).symm, by simp⟩
  | cons ready batch ih =>
    obtain ⟨es, hes⟩ := grows_dispatch st ready
    obtain ⟨es', hes'⟩ := ih (dispatch st ready)
    exact ⟨_, hes.trans hes'⟩

/-! ### The events of a poll -/

/-- A batch without the timer is the calls of its callbacks. -/
theorem foldl_dispatch_fds {batch : List Ready} (st : State) (h : ∀ r ∈ batch, r.isTimer = false) :
    batch.foldl dispatch st = (batch.flatMap Ready.calls).foldl scheduleTimer st := by
  induction batch generalizing st with
  | nil => rfl
  | cons ready batch ih =>
    obtain ⟨hready, hbatch⟩ := List.forall_mem_cons.mp h
    cases ready with
    | fd calls =>
      rw [List.foldl_cons, List.flatMap_cons, List.foldl_append, ih _ hbatch]
      rfl
    | timer now calls => cases hready

/-- The timer has at most one turn. -/
theorem batch_cases {batch : List Ready} (h : batch.countP Ready.isTimer ≤ 1) :
    (∀ r ∈ batch, r.isTimer = false) ∨ ∃ before turn calls after,
      batch = before ++ .timer turn calls :: after ∧ (∀ r ∈ before, r.isTimer = false) ∧
      ∀ r ∈ after, r.isTimer = false := by
  by_cases hany : ∃ r ∈ batch, r.isTimer = true
  · obtain ⟨r, hr, htimer⟩ := hany
    obtain ⟨before, after, rfl⟩ := List.append_of_mem hr
    cases r with
    | fd calls => cases htimer
    | timer turn calls =>
      rw [List.countP_append, List.countP_cons_of_pos htimer] at h
      have hbefore : before.countP Ready.isTimer = 0 := by omega
      have hafter : after.countP Ready.isTimer = 0 := by omega
      rw [List.countP_eq_zero] at hbefore hafter
      exact .inr ⟨before, turn, calls, after, rfl, by simpa using hbefore, by simpa using hafter⟩
  · refine .inl fun r hr => ?_
    by_contra hne
    exact hany ⟨r, hr, by simpa using hne⟩

/-- The loop holds what the last call has scheduled. -/
theorem timerCb_foldl {st : State} {calls : List Call} {call : Call} (h : calls.getLast? = some call) :
    ∃ id, (calls.foldl scheduleTimer st).timerCb = some { toCall := call, id := id } := by
  rcases List.eq_nil_or_concat calls with rfl | ⟨calls, last, rfl⟩
  · cases h
  · rw [List.concat_eq_append] at h ⊢
    rw [List.getLast?_concat] at h
    obtain rfl := Option.some.inj h
    rw [List.foldl_append]
    exact ⟨_, rfl⟩

/-- The loop when `epoll_wait` returns. -/
def waited (st : State) (now : ℕ) : State :=
  { st with clock := now, log := st.log ++ [.waited now] }

theorem log_pollOnce {st : State} {now : ℕ} {batch : List Ready} :
    (pollOnce st now batch).1 = { batch.foldl dispatch (waited st now) with
      log := (batch.foldl dispatch (waited st now)).log ++ [.returned] } := by
  unfold pollOnce
  dsimp only
  split_ifs with hempty
  · rw [List.isEmpty_iff.mp hempty]
    rfl
  · rfl

/-- An event that neither schedules nor runs a callback keeps the invariant. -/
theorem inv_note {st : State} {e : Event} (clock : ℕ) (h : Inv st) (hscheduled : e.scheduled? = none)
    (hran : ∀ cb t, e ≠ .ran cb t) (he : Explained st.log e) :
    Inv { st with clock := clock, log := st.log ++ [e] } := by
  have hold : ∀ cb t, .ran cb t ∈ st.log ++ [e] → .ran cb t ∈ st.log := by
    intro cb t ht
    rcases List.mem_append.mp ht with ht | ht
    · exact ht
    · exact absurd (List.mem_singleton.mp ht).symm (hran cb t)
  constructor
  · exact justified_append_singleton_iff.mpr ⟨h.oneShot, he⟩
  · intro cb hcb
    obtain ⟨hcurrent, hnot, hexpires, hid⟩ := h.held cb hcb
    refine ⟨?_, fun t ht => hnot t (hold cb t ht), hexpires, hid⟩
    rw [← hcurrent]
    exact current_append hscheduled
  · intro hcb cb hcurrent
    rw [current_append hscheduled] at hcurrent
    obtain ⟨t, ht⟩ := h.idle hcb cb hcurrent
    exact ⟨t, List.mem_append_left _ ht⟩
  · intro cb t ht
    exact h.fresh cb t (hold cb t ht)

theorem inv_waited {st : State} (now : ℕ) (h : Inv st) : Inv (waited st now) :=
  inv_note now h rfl (by simp) trivial

/-- The callback that the timer's turn meets is due: it was when the poll began, or it has been scheduled
by a callback of the batch. -/
theorem due_at_turn {st : State} {now turn : ℕ} {calls : List Call} (h : Inv st)
    (hread : st.readable now = true) (hturn : now ≤ turn)
    (hcalls : ∀ call, calls.getLast? = some call → call.due ≤ turn) :
    ∀ cb, (calls.foldl scheduleTimer (waited st now)).timerCb = some cb → cb.due ≤ turn := by
  intro cb hcb
  cases hlast : calls.getLast? with
  | none =>
    rw [List.getLast?_eq_none_iff] at hlast
    rw [hlast] at hcb
    obtain ⟨-, -, hexpires, -⟩ := h.held cb hcb
    exact Nat.le_trans (due_of_readable hexpires hread) hturn
  | some call =>
    obtain ⟨id, hid⟩ := @timerCb_foldl (waited st now) _ _ hlast
    rw [hid] at hcb
    obtain rfl := Option.some.inj hcb
    exact hcalls call hlast

/-- The clock at the turns of a poll. -/
theorem le_turn {st : State} {now turn : ℕ} {before after : List Ready} {calls : List Call}
    (h : (Op.pollOnce now (before ++ .timer turn calls :: after)).Valid st) : now ≤ turn := by
  have hclock := (List.pairwise_cons.mp (List.pairwise_cons.mp h.1).2).1
  exact hclock turn (by simp [Ready.times])

/-- **A timely poll keeps the invariant** up to its return. -/
theorem inv_batch {st : State} {now : ℕ} {batch : List Ready} (h : Inv st)
    (hvalid : (Op.pollOnce now batch).Valid st)
    (hearly : ∀ before turn calls after, batch = before ++ .timer turn calls :: after →
      ∀ call, (before.flatMap Ready.calls).getLast? = some call → call.due ≤ turn) :
    Inv (batch.foldl dispatch (waited st now)) := by
  have hsnapshot := hvalid.2 now batch rfl
  rcases batch_cases hsnapshot.one with hfds | ⟨before, turn, calls, after, rfl, hbefore, hafter⟩
  · rw [foldl_dispatch_fds _ hfds]
    exact inv_foldl _ (inv_waited now h)
  · have hread := hsnapshot.ready (by simp [Ready.isTimer])
    rw [List.foldl_append, List.foldl_cons, foldl_dispatch_fds _ hbefore, foldl_dispatch_fds _ hafter]
    refine inv_foldl _ (inv_dispatch_timer (inv_foldl _ (inv_waited now h)) ?_)
    exact due_at_turn h hread (le_turn hvalid) (hearly before turn calls after rfl)

/-- A poll with the timer runs the callback it finds, or replaces it. -/
theorem runs_or_replaces {st : State} {batch : List Ready} {cb : Scheduled} {es : List Event}
    (hcb : st.timerCb = some cb) (hone : batch.countP Ready.isTimer ≤ 1)
    (hgrows : Grows st (batch.foldl dispatch st) es)
    (h : batch.any Ready.isTimer = true ∨ batch.flatMap Ready.calls ≠ []) :
    (∃ t, .ran cb t ∈ es) ∨ ∃ cb', .scheduled cb' ∈ es := by
  rcases batch_cases hone with hfds | ⟨before, turn, calls, after, rfl, hbefore, -⟩
  · -- no timer, so a call
    have hcalls : batch.flatMap Ready.calls ≠ [] := by
      refine h.resolve_left fun hany => ?_
      obtain ⟨r, hr, htimer⟩ := List.any_eq_true.mp hany
      rw [hfds r hr] at htimer
      cases htimer
    obtain ⟨es', hes', hscheduled⟩ := grows_foldl st (batch.flatMap Ready.calls)
    rw [foldl_dispatch_fds _ hfds] at hgrows
    obtain rfl := List.append_cancel_left (hgrows.1.symm.trans hes'.1)
    exact .inr (hscheduled hcalls)
  -- a timer: the calls in front of it may have replaced the callback
  · obtain ⟨es₁, hes₁, hscheduled⟩ := grows_foldl st (before.flatMap Ready.calls)
    rw [List.foldl_append, foldl_dispatch_fds _ hbefore] at hgrows
    by_cases hcalls : before.flatMap Ready.calls = []
    · -- the callback is still there in the timer's turn
      rw [hcalls, List.foldl_nil, List.foldl_cons] at hgrows
      obtain ⟨hnone, -⟩ | ⟨cb', hcb', heq⟩ := @dispatch_timer st turn calls
      · rw [hnone] at hcb
        cases hcb
      · obtain rfl := Option.some.inj (hcb'.symm.trans hcb)
        obtain ⟨es₂, hes₂, -⟩ := grows_foldl (runTimer st cb' turn) calls
        rw [heq] at hgrows
        obtain ⟨es₃, hes₃⟩ := grows_batch (calls.foldl scheduleTimer (runTimer st cb' turn)) after
        have hrun : Grows st (runTimer st cb' turn) [.ran cb' turn] := ⟨rfl, by simp⟩
        have hall := (hrun.trans hes₂).trans hes₃
        obtain rfl := List.append_cancel_left (hgrows.1.symm.trans hall.1)
        exact .inl ⟨turn, by simp⟩
    -- they have, so the new callback is scheduled
    · obtain ⟨cb', hcb'⟩ := hscheduled hcalls
      obtain ⟨es₂, hes₂⟩ := grows_batch ((before.flatMap Ready.calls).foldl scheduleTimer st)
        (.timer turn calls :: after)
      have hall := hes₁.trans hes₂
      obtain rfl := List.append_cancel_left (hgrows.1.symm.trans hall.1)
      exact .inr ⟨cb', List.mem_append_left _ hcb'⟩

/-! ### Runs -/

/-- The last poll of a log. -/
theorem eq_of_waited {log es before during : List Event} {now t : ℕ} (hes : ∀ t, .waited t ∉ es)
    (hduring : ∀ t, .waited t ∉ during)
    (heq : log ++ .waited now :: es = before ++ .waited t :: during) :
    before = log ∧ t = now ∧ during = es := by
  obtain ⟨rest, -, rfl⟩ | ⟨rest, rfl, hrest⟩ := append_eq_append_cons heq
  · exact absurd (List.mem_append_right _ List.mem_cons_self) (hduring now)
  · cases rest with
    | nil =>
      obtain ⟨hevent, rfl⟩ := List.cons.inj hrest
      exact ⟨List.append_nil _, (Event.waited.inj hevent).symm, rfl⟩
    | cons e rest =>
      obtain ⟨-, rfl⟩ := List.cons.inj hrest
      exact absurd (List.mem_append_right _ List.mem_cons_self) (hes t)

/-- **A timely operation keeps the invariant.** -/
theorem inv_apply {st : State} {op : Op} (h : Inv st) (htimely : Timely st op) (hvalid : op.Valid st) :
    Inv (st.apply op) := by
  cases op with
  | scheduleTimer call => exact inv_scheduleTimer call h
  | pollOnce now batch =>
    obtain ⟨hearly, hlate⟩ := htimely
    obtain ⟨es, hlog, hes⟩ := grows_batch (waited st now) batch
    rw [State.apply, log_pollOnce]
    refine inv_note _ (inv_batch h hvalid hearly) rfl (by simp) ?_
    intro before t during heq hduring cb hcurrent hdue
    have hwhole : st.log ++ .waited now :: es = before ++ .waited t :: during := by
      rw [← heq, hlog]
      simp [waited]
    obtain ⟨rfl, rfl, rfl⟩ := eq_of_waited hes hduring hwhole
    rw [heq]
    cases hcb : st.timerCb with
    | none =>
      obtain ⟨t', ht'⟩ := h.idle hcb cb hcurrent
      exact .inl ⟨t', List.mem_append_left _ ht'⟩
    | some cb' =>
      obtain rfl := Option.some.inj ((h.held cb' hcb).1.symm.trans hcurrent)
      obtain ⟨t', ht'⟩ | hreplaced := @runs_or_replaces (waited st t) _ _ _ hcb
        (hvalid.2 t batch rfl).one ⟨hlog, hes⟩ (hlate cb' hcb hdue)
      · exact .inl ⟨t', List.mem_append_right _ (List.mem_cons_of_mem _ ht')⟩
      · exact .inr hreplaced

/-- What one turn logs is in the log of the poll. -/
theorem mem_log_pollOnce {st : State} {now : ℕ} {before after : List Ready} {ready : Ready} {e : Event}
    (he : e ∈ (dispatch (before.foldl dispatch (waited st now)) ready).log) :
    e ∈ (pollOnce st now (before ++ ready :: after)).1.log := by
  rw [log_pollOnce, List.foldl_append, List.foldl_cons]
  obtain ⟨es, hes⟩ := grows_batch (dispatch (before.foldl dispatch (waited st now)) ready) after
  exact List.mem_append_left _ (hes.mem he)

/-- **An operation that is not timely** leaves a log that is not one-shot. -/
theorem not_oneShot_apply {st : State} {op : Op} (h : Inv st) (htimely : ¬ Timely st op)
    (hvalid : op.Valid st) : ¬ OneShot (st.apply op).log := by
  intro hone
  refine htimely ?_
  cases op with
  | scheduleTimer call => trivial
  | pollOnce now batch =>
    have hsnapshot := hvalid.2 now batch rfl
    constructor
    · -- the callback that the call has scheduled runs in the timer's turn
      rintro before turn calls after rfl call hlast
      have hbefore : ∀ r ∈ before, r.isTimer = false := by
        have hcount := hsnapshot.one
        rw [List.countP_append, List.countP_cons_of_pos rfl] at hcount
        have hzero : before.countP Ready.isTimer = 0 := by omega
        simpa using List.countP_eq_zero.mp hzero
      obtain ⟨id, hid⟩ := @timerCb_foldl (waited st now) _ _ hlast
      rw [← foldl_dispatch_fds _ hbefore] at hid
      obtain ⟨hnone, -⟩ | ⟨cb, hcb, heq⟩ :=
        @dispatch_timer (before.foldl dispatch (waited st now)) turn calls
      · rw [hid] at hnone
        cases hnone
      · obtain rfl := Option.some.inj (hid.symm.trans hcb)
        have hran : Event.ran { toCall := call, id := id } turn ∈
            (dispatch (before.foldl dispatch (waited st now)) (.timer turn calls)).log := by
          rw [heq]
          obtain ⟨es, hes, -⟩ := grows_foldl
            (runTimer (before.foldl dispatch (waited st now)) { toCall := call, id := id } turn) calls
          exact hes.mem (List.mem_append_right _ (List.mem_singleton_self _))
        obtain ⟨_, _, -, hexplained⟩ := hone.exists_of_mem (@mem_log_pollOnce st now before after _ _ hran)
        exact hexplained.2.2
    · -- nothing happens in the poll
      intro cb hcb hdue
      by_contra hno
      rw [not_or, not_not] at hno
      have hfds : ∀ r ∈ batch, r.isTimer = false := by
        simpa using hno.1
      have hlog : (pollOnce st now batch).1.log = st.log ++ [.waited now] ++ [.returned] := by
        rw [log_pollOnce, foldl_dispatch_fds _ hfds, hno.2]
        rfl
      obtain ⟨hcurrent, hnot, -⟩ := h.held cb hcb
      rw [State.apply, hlog] at hone
      obtain ⟨t, ht⟩ | ⟨cb', hcb'⟩ := (justified_append_singleton_iff.mp hone).2 st.log now [] rfl
        (by simp) cb hcurrent hdue
      · rcases List.mem_append.mp ht with ht | ht
        · exact hnot t ht
        · cases List.mem_singleton.mp ht
      · cases hcb'

theorem step_deterministic (st : State) (op : Op) (st₁ st₂ : State) (h₁ : Step st op st₁)
    (h₂ : Step st op st₂) : st₁ = st₂ :=
  h₁.2.trans h₂.2.symm

/-- **The timer is one-shot in every state of a run** exactly when every operation is timely. -/
theorem oneShot_iff {ops : List Op} {st : State} (hrun : Run Step {} ops st) :
    (∀ before after st', ops = before ++ after → Run Step {} before st' → OneShot st'.log) ↔
      StepsMeet Step Timely {} ops st := by
  refine hrun.forall_prefix_iff_stepsMeet (I := Inv) (P := fun st => OneShot st.log) step_deterministic
    (fun st h => h.oneShot) ?_ ?_ inv_init
  · rintro st op st' h htimely ⟨hvalid, rfl⟩
    exact inv_apply h htimely hvalid
  · rintro st op st' h htimely ⟨hvalid, rfl⟩
    exact not_oneShot_apply h htimely hvalid

theorem valid_scheduleTimer {st : State} {call : Call} (h : st.clock ≤ call.now) :
    (Op.scheduleTimer call).Valid st := by
  refine ⟨?_, fun now batch heq => by cases heq⟩
  simpa [Op.times] using h

theorem valid_pollOnce {st : State} {now : ℕ} {batch : List Ready}
    (hclock : (st.clock :: now :: batch.flatMap Ready.times).Pairwise (· ≤ ·))
    (h : Snapshot st now batch) : (Op.pollOnce now batch).Valid st := by
  refine ⟨hclock, fun now' batch' heq => ?_⟩
  cases heq
  exact h

/-- A delay of 10 ms, and a poll that finds it over. -/
theorem oneShot_iff_poll :
    (∀ before after st',
      [Op.scheduleTimer ⟨0, 10⟩, .pollOnce 10000000 [.timer 10000000 []]] = before ++ after →
        Run Step {} before st' → OneShot st'.log) ↔
      StepsMeet Step Timely {} [Op.scheduleTimer ⟨0, 10⟩, .pollOnce 10000000 [.timer 10000000 []]]
        ((State.apply {} (.scheduleTimer ⟨0, 10⟩)).apply (.pollOnce 10000000 [.timer 10000000 []])) := by
  have hsnapshot : Snapshot (State.apply {} (.scheduleTimer ⟨0, 10⟩)) 10000000 [.timer 10000000 []] := by
    constructor <;> decide
  exact oneShot_iff (.snoc (.snoc .nil ⟨valid_scheduleTimer (by decide), rfl⟩)
    ⟨valid_pollOnce (by decide) hsnapshot, rfl⟩)

/-- The timer expires as a descriptor gets ready, and the descriptor's callback, which has its turn first,
schedules the timer again. -/
def staleOps : List Op :=
  [.scheduleTimer ⟨0, 10⟩, .pollOnce 10000000 [.fd [⟨10000000, 50⟩], .timer 10000000 []]]

/-- The callback with a delay of 50 ms runs at once. -/
theorem not_oneShot_stale : ∃ st, Run Step {} staleOps st ∧ ¬ OneShot st.log := by
  have hsnapshot : Snapshot (State.apply {} (.scheduleTimer ⟨0, 10⟩)) 10000000
      [.fd [⟨10000000, 50⟩], .timer 10000000 []] := by
    constructor <;> decide
  refine ⟨_, .snoc (.snoc .nil ⟨valid_scheduleTimer (by decide), rfl⟩)
    ⟨valid_pollOnce (by decide) hsnapshot, rfl⟩, fun hone => ?_⟩
  have hdue := (hone [.scheduled ⟨⟨0, 10⟩, 0⟩, .waited 10000000, .scheduled ⟨⟨10000000, 50⟩, 1⟩]
    (.ran ⟨⟨10000000, 50⟩, 1⟩ 10000000) [.returned] rfl).2.2
  exact absurd hdue (by decide)

end EpollEventLoop

end AsterNet
