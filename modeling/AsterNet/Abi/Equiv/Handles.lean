import AsterNet.Abi.Handles
import Mathlib.Data.List.GetD

/-!
# The life of a client handle

Three invariants, each preserved by every step: `Registry` ties the registry to what was created and
destroyed, `Counts` ties each handle to the calls that hold it, and `Late` is about acquires that begin
after a destroy returned.  `lifecycle_of_run` draws the life of a handle from them.
-/

namespace AsterNet.Abi.Handles

open Transition

/-- The tokens handed out. -/
def tokens {ι : Type} (h : List (Event ι)) : List ℕ :=
  h.filterMap fun e =>
    match e with
    | .created _ token _ => some token
    | _ => none

section

variable {ι : Type} [DecidableEq ι] {m m' : Machine ι} {h : List (Event ι)} {es : List (Event ι)} {t : ι}

/-! ### The registry -/

/-- The registry holds what was created and not yet destroyed. -/
structure Registry (m : Machine ι) (h : List (Event ι)) : Prop where
  next_pos : 0 < m.nextHandleId
  next_le : m.nextHandleId ≤ m.uintptrMax / 2 + 1
  created_token : ∀ t token i, .created t token i ∈ h → token ≠ 0 ∧ token < 2 * m.nextHandleId
  created_index : ∀ t token i, .created t token i ∈ h → i < m.heap.length
  tokens_nodup : (tokens h).Nodup
  registered : ∀ token i, m.handles.lookup token = some i → ∃ t, .created t token i ∈ h
  erased_gone : ∀ t token i, .erased t token i ∈ h → token ∉ m.handles
  erased_created : ∀ t token i, .erased t token i ∈ h → ∃ u, .created u token i ∈ h
  marking : ∀ t token i, m.phase t = .marking token i → .erased t token i ∈ h
  /-- A token that was handed out before a destroy returned is gone. -/
  closed : ∀ before after u token r c i, h = before ++ .destroyReturned u token r :: after →
    .created c token i ∈ before → token ∉ m.handles

omit [DecidableEq ι] in
theorem mem_tokens_iff {token : ℕ} : token ∈ tokens h ↔ ∃ t i, .created t token i ∈ h := by
  unfold tokens
  rw [List.mem_filterMap]
  constructor
  · rintro ⟨e, he, htoken⟩
    split at htoken
    · cases htoken
      exact ⟨_, _, he⟩
    · cases htoken
  · rintro ⟨t, i, he⟩
    exact ⟨_, he, rfl⟩

omit [DecidableEq ι] in
theorem Registry.token_eq (hr : Registry m h) (hroom : m.nextHandleId ≤ m.uintptrMax / 2) :
    m.token = 2 * m.nextHandleId + 1 ∧ m.nextHandleId + 1 < 2 ^ m.wordBits := by
  have hpos := hr.next_pos
  unfold Machine.uintptrMax at hroom
  -- a width of zero has no room
  obtain ⟨k, hk⟩ : ∃ k, m.wordBits = k + 1 := by
    refine ⟨m.wordBits - 1, ?_⟩
    rcases Nat.eq_zero_or_pos m.wordBits with hzero | hwidth
    · rw [hzero] at hroom
      omega
    · omega
  have hpow : 2 ^ m.wordBits = 2 * 2 ^ k := by rw [hk, Nat.pow_succ']
  rw [hpow] at hroom
  rw [Machine.token, hpow]
  exact ⟨Nat.mod_eq_of_lt (by omega), by omega⟩

/-- A step that takes no token out and hands none out, and returns only from a destroy whose token is
gone. -/
theorem Registry.silent (hr : Registry m h) {p : Phase} (hp : ∀ token i, p ≠ .marking token i)
    (hnext : m'.nextHandleId = m.nextHandleId) (hbits : m'.wordBits = m.wordBits)
    (hhandles : m'.handles = m.handles) (hheap : m'.heap.length = m.heap.length)
    (hphase : m'.phase = Function.update m.phase t p)
    (hes : ∀ e ∈ es, ∀ u token, (∀ i, e ≠ .created u token i ∧ e ≠ .erased u token i) ∧
      ∀ r, e = .destroyReturned u token r → token ∉ m.handles) : Registry m' (h ++ es) := by
  -- creations and erasures are those of `h`; only returns from a destroy may be new
  have hcreated : ∀ u token i, .created u token i ∈ h ++ es → .created u token i ∈ h := by
    intro u token i he
    exact (List.mem_append.mp he).resolve_right fun he' => ((hes _ he' u token).1 i).1 rfl
  have herased : ∀ u token i, .erased u token i ∈ h ++ es → .erased u token i ∈ h := by
    intro u token i he
    exact (List.mem_append.mp he).resolve_right fun he' => ((hes _ he' u token).1 i).2 rfl
  have htokens : tokens es = [] := by
    refine List.eq_nil_iff_forall_not_mem.mpr fun token htoken => ?_
    obtain ⟨u, i, he⟩ := mem_tokens_iff.mp htoken
    exact ((hes _ he u token).1 i).1 rfl
  exact
    { next_pos := hnext ▸ hr.next_pos
      next_le := by
        rw [hnext, Machine.uintptrMax, hbits]
        exact hr.next_le
      created_token := fun u token i he => hnext ▸ hr.created_token u token i (hcreated u token i he)
      created_index := fun u token i he => hheap ▸ hr.created_index u token i (hcreated u token i he)
      tokens_nodup := by
        unfold tokens at htokens ⊢
        rw [List.filterMap_append, htokens, List.append_nil]
        exact hr.tokens_nodup
      registered := by
        intro token i hlookup
        obtain ⟨u, he⟩ := hr.registered token i (hhandles ▸ hlookup)
        exact ⟨u, List.mem_append_left _ he⟩
      erased_gone := fun u token i he => hhandles ▸ hr.erased_gone u token i (herased u token i he)
      erased_created := by
        intro u token i he
        obtain ⟨v, hv⟩ := hr.erased_created u token i (herased u token i he)
        exact ⟨v, List.mem_append_left _ hv⟩
      marking := by
        intro u token i hu
        rw [hphase] at hu
        rcases eq_or_ne u t with rfl | hne
        · rw [Function.update_self] at hu
          exact absurd hu (hp token i)
        · rw [Function.update_of_ne hne] at hu
          exact List.mem_append_left _ (hr.marking u token i hu)
      -- an old return keeps its clause; a new one names a token that is out of the table
      closed := by
        intro before after u token r c i heq hc
        rw [hhandles]
        rcases append_eq_append_cons heq with ⟨after', rfl, rfl⟩ | ⟨before', rfl, rfl⟩
        · exact hr.closed before after' u token r c i rfl hc
        · exact (hes _ (by simp) u token).2 r rfl }

theorem Registry.created (hr : Registry m h)
    (hroom : m.nextHandleId ≤ m.uintptrMax / 2) :
    Registry (m.created t) (h ++ [.created t m.token m.heap.length]) := by
  obtain ⟨htoken, hnext⟩ := hr.token_eq hroom
  have hnext' : (m.created t).nextHandleId = m.nextHandleId + 1 := Nat.mod_eq_of_lt hnext
  -- the new token is larger than all before it
  have hfresh : ∀ u token i, .created u token i ∈ h → token ≠ m.token := by
    intro u token i he
    have hlt := (hr.created_token u token i he).2
    omega
  -- the table grows by the fresh token only
  have hgone : ∀ {token : ℕ}, token ≠ m.token → token ∉ m.handles → token ∉ (m.created t).handles := by
    intro token hne hnot hmem
    exact ((AList.mem_insert _).mp hmem).elim hne hnot
  have hphase : ∀ u token i, (m.created t).phase u = .marking token i → m.phase u = .marking token i := by
    intro u token i hu
    rcases eq_or_ne u t with rfl | hne
    · rw [Machine.created, Machine.goto_phase_self] at hu
      cases hu
    · rwa [Machine.created, Machine.goto_phase_of_ne _ hne] at hu
  exact
    { next_pos := by omega
      next_le := by
        show (m.created t).nextHandleId ≤ m.uintptrMax / 2 + 1
        omega
      created_token := by
        intro u token i he
        rcases List.mem_append.mp he with he | he
        · have hold := hr.created_token u token i he
          omega
        · cases List.mem_singleton.mp he
          omega
      created_index := by
        intro u token i he
        show i < (m.heap ++ [({} : ClientHandle)]).length
        rw [List.length_append, List.length_singleton]
        rcases List.mem_append.mp he with he | he
        · have hold := hr.created_index u token i he
          omega
        · cases List.mem_singleton.mp he
          omega
      tokens_nodup := by
        unfold tokens
        rw [List.filterMap_append]
        refine List.nodup_append.mpr ⟨hr.tokens_nodup, List.nodup_singleton _, ?_⟩
        rintro token htoken token' htoken' rfl
        obtain ⟨u, i, he⟩ := mem_tokens_iff.mp htoken
        exact hfresh u token i he (List.mem_singleton.mp htoken')
      registered := by
        intro token i hlookup
        rcases UnorderedMap.lookup_insert_cases hlookup with ⟨rfl, rfl⟩ | ⟨-, hlookup⟩
        · exact ⟨t, by simp⟩
        · obtain ⟨u, he⟩ := hr.registered token i hlookup
          exact ⟨u, List.mem_append_left _ he⟩
      erased_gone := by
        intro u token i he
        have he : .erased u token i ∈ h := by simpa using he
        obtain ⟨v, hv⟩ := hr.erased_created u token i he
        exact hgone (hfresh v token i hv) (hr.erased_gone u token i he)
      erased_created := by
        intro u token i he
        obtain ⟨v, hv⟩ := hr.erased_created u token i (by simpa using he)
        exact ⟨v, List.mem_append_left _ hv⟩
      marking := fun u token i hu => List.mem_append_left _ (hr.marking u token i (hphase u token i hu))
      -- a return from a destroy lies in `h`, since the step adds a creation
      closed := by
        intro before after u token r c i heq hc
        rcases append_eq_append_cons heq with ⟨after', rfl, -⟩ | ⟨before', -, hes⟩
        · exact hgone (hfresh c token i (List.mem_append_left _ hc))
            (hr.closed before after' u token r c i rfl hc)
        · cases before' with
          | nil => cases hes
          | cons e before' => simp at hes }

/-- Taking a token out. -/
theorem Registry.erased (hr : Registry m h) {token i : ℕ} (hsome : m.handles.lookup token = some i) :
    Registry ((m.erase token).goto t (.marking token i)) (h ++ [.erased t token i]) := by
  have hsub : ∀ {token' : ℕ}, token' ∉ m.handles → token' ∉ m.handles.erase token :=
    fun hnot hmem => hnot (AList.mem_erase.mp hmem).2
  exact
    { next_pos := hr.next_pos
      next_le := hr.next_le
      created_token := fun u token' j he => hr.created_token u token' j (by simpa using he)
      created_index := fun u token' j he => hr.created_index u token' j (by simpa using he)
      tokens_nodup := by
        unfold tokens
        rw [List.filterMap_append]
        exact (List.append_nil (tokens h)).symm ▸ hr.tokens_nodup
      registered := by
        intro token' j hlookup
        obtain ⟨u, he⟩ := hr.registered token' j (UnorderedMap.lookup_of_lookup_erase hlookup)
        exact ⟨u, List.mem_append_left _ he⟩
      erased_gone := by
        intro u token' j he
        rcases List.mem_append.mp he with he | he
        · exact hsub (hr.erased_gone u token' j he)
        -- `erase` takes the token of the event out
        · cases List.mem_singleton.mp he
          exact fun hmem => (AList.mem_erase.mp hmem).1 rfl
      erased_created := by
        -- what is erased was registered, so it had been created
        intro u token' j he
        rcases List.mem_append.mp he with he | he
        · obtain ⟨v, hv⟩ := hr.erased_created u token' j he
          exact ⟨v, List.mem_append_left _ hv⟩
        · cases List.mem_singleton.mp he
          obtain ⟨v, hv⟩ := hr.registered token i hsome
          exact ⟨v, List.mem_append_left _ hv⟩
      marking := by
        intro u token' j hu
        rcases eq_or_ne u t with rfl | hne
        · rw [Machine.goto_phase_self] at hu
          cases hu
          exact List.mem_append_right _ List.mem_cons_self
        · rw [Machine.goto_phase_of_ne _ hne] at hu
          exact List.mem_append_left _ (hr.marking u token' j hu)
      -- the table shrinks, so what was out stays out
      closed := by
        intro before after u token' r c j heq hc
        rcases append_eq_append_cons heq with ⟨after', rfl, -⟩ | ⟨before', -, hes⟩
        · exact hsub (hr.closed before after' u token' r c j rfl hc)
        · cases before' with
          | nil => cases hes
          | cons e before' => simp at hes }

theorem registry_step (hr : Registry m h) (hstep : Stepped m m' es) : Registry m' (h ++ es) := by
  cases hstep with
  | refused t hidle =>
    exact hr.silent (p := .returned) (by simp) rfl rfl rfl rfl rfl (by simp)
  | created t hidle hroom => exact hr.created hroom
  | unknown t token hidle hnone =>
    exact hr.silent (p := .returned) (by simp) rfl rfl rfl rfl rfl (by simp)
  | found t token i hidle hsome =>
    exact hr.silent (p := .checking i) (by simp) rfl rfl rfl rfl rfl (by simp)
  | dead t i hchecking =>
    exact hr.silent (p := .returned) (by simp) rfl rfl rfl rfl rfl (by simp)
  | acquired t i hchecking hlive =>
    exact hr.silent (p := .holding i) (by simp) rfl rfl rfl (by simp [Machine.set]) rfl (by simp)
  | released t i hholding =>
    exact hr.silent (p := .returned) (by simp) rfl rfl rfl (by simp [Machine.set]) rfl (by simp)
  | missed t token hidle hnone =>
    refine hr.silent (p := .returned) (by simp) rfl rfl rfl rfl rfl ?_
    simpa using AList.lookup_eq_none.mp hnone
  | erased t token i hidle hsome => exact hr.erased hsome
  | marked t token i hmarking =>
    refine hr.silent (p := .returned) (by simp) rfl rfl rfl (by simp [Machine.set]) rfl ?_
    have hgone := hr.erased_gone t token i (hr.marking t token i hmarking)
    simpa using hgone

/-! ### The handles -/

/-- A handle counts the calls that hold it, and keeps its client until it is marked and free. -/
structure Counts (m : Machine ι) (h : List (Event ι)) : Prop where
  checking_lt : ∀ t i, m.phase t = .checking i → i < m.heap.length
  holding_lt : ∀ t i, m.phase t = .holding i → i < m.heap.length
  marking_lt : ∀ t token i, m.phase t = .marking token i → i < m.heap.length
  active : ∀ i, ∃ holders : List ι, holders.Nodup ∧ (∀ t, t ∈ holders ↔ m.phase t = .holding i) ∧
    (m.handle i).activeRequests = holders.length
  client : ∀ i, (m.handle i).client = false ↔
    (m.handle i).destroying = true ∧ (m.handle i).activeRequests = 0
  destroying : ∀ i, (m.handle i).destroying = true ↔ ∃ u token, .destroyReturned u token (some i) ∈ h
  holding_iff : ∀ t i, m.phase t = .holding i ↔ .acquireReturned t (some i) ∈ h ∧ .released t i ∉ h
  fresh : ∀ t, (m.phase t = .idle ∨ ∃ j, m.phase t = .checking j) →
    ∀ i, .acquireReturned t (some i) ∉ h ∧ .released t i ∉ h

omit [DecidableEq ι] in
theorem handle_set {i j : ℕ} (hi : i < m.heap.length) (handle : ClientHandle) :
    (m.set i handle).handle j = if j = i then handle else m.handle j := by
  unfold Machine.handle Machine.set
  rw [List.getD_eq_getElem?_getD, List.getD_eq_getElem?_getD, List.getElem?_set]
  split_ifs with hij hji hji
  · rfl
  · exact absurd hij.symm hji
  · exact absurd hji.symm hij
  · rfl

theorem handle_created (t : ι) (j : ℕ) : (m.created t).handle j = m.handle j := by
  show (m.heap ++ [({} : ClientHandle)]).getD j {} = m.heap.getD j {}
  rcases lt_trichotomy j m.heap.length with hlt | rfl | hgt
  · rw [List.getD_append _ _ _ _ hlt]
  · simp [List.getD_eq_getElem?_getD]
  · rw [List.getD_eq_default _ _ (by simp; omega), List.getD_eq_default _ _ (by omega)]

/-- A step after which the same calls hold the same handles. -/
theorem Counts.move (hc : Counts m h) {p : Phase} (hphase : m'.phase = Function.update m.phase t p)
    (hbefore : ∀ i, m.phase t ≠ .holding i) (hidle : p ≠ .idle) (hholding : ∀ i, p ≠ .holding i)
    (hchecking : ∀ i, p = .checking i → m.phase t = .idle ∧ i < m.heap.length)
    (hmarking : ∀ token i, p = .marking token i → i < m.heap.length)
    (hlength : m.heap.length ≤ m'.heap.length)
    (hactive : ∀ j, (m'.handle j).activeRequests = (m.handle j).activeRequests)
    (hclient : ∀ j, (m'.handle j).client = false ↔
      (m'.handle j).destroying = true ∧ (m'.handle j).activeRequests = 0)
    (hdestroying : ∀ j, (m'.handle j).destroying = true ↔
      ∃ u token, .destroyReturned u token (some j) ∈ h ++ es)
    (hes : ∀ e ∈ es, ∀ u i, e ≠ .acquireReturned u (some i) ∧ e ≠ .released u i) :
    Counts m' (h ++ es) := by
  -- the histories agree on acquires and releases, and the phases on who holds what
  have hacquired : ∀ u i, .acquireReturned u (some i) ∈ h ++ es ↔ .acquireReturned u (some i) ∈ h := by
    intro u i
    rw [List.mem_append, or_iff_left fun he => (hes _ he u i).1 rfl]
  have hreleased : ∀ u i, .released u i ∈ h ++ es ↔ .released u i ∈ h := by
    intro u i
    rw [List.mem_append, or_iff_left fun he => (hes _ he u i).2 rfl]
  have hself : m'.phase t = p := by rw [hphase, Function.update_self]
  have hother : ∀ u, u ≠ t → m'.phase u = m.phase u := by
    intro u hne
    rw [hphase, Function.update_of_ne hne]
  have hsame : ∀ u i, m'.phase u = .holding i ↔ m.phase u = .holding i := by
    intro u i
    rcases eq_or_ne u t with rfl | hne
    · rw [hself]
      exact ⟨fun hp => absurd hp (hholding i), fun hu => absurd hu (hbefore i)⟩
    · rw [hother u hne]
  exact
    { checking_lt := by
        intro u i hu
        rcases eq_or_ne u t with rfl | hne
        · rw [hself] at hu
          exact Nat.lt_of_lt_of_le (hchecking i hu).2 hlength
        · rw [hother u hne] at hu
          exact Nat.lt_of_lt_of_le (hc.checking_lt u i hu) hlength
      holding_lt := fun u i hu => Nat.lt_of_lt_of_le (hc.holding_lt u i ((hsame u i).mp hu)) hlength
      marking_lt := by
        intro u token i hu
        rcases eq_or_ne u t with rfl | hne
        · rw [hself] at hu
          exact Nat.lt_of_lt_of_le (hmarking token i hu) hlength
        · rw [hother u hne] at hu
          exact Nat.lt_of_lt_of_le (hc.marking_lt u token i hu) hlength
      -- the same callers serve as the witness of the count
      active := by
        intro i
        obtain ⟨holders, hnodup, hmem, hcount⟩ := hc.active i
        refine ⟨holders, hnodup, fun u => (hmem u).trans (hsame u i).symm, ?_⟩
        rw [hactive]
        exact hcount
      client := hclient
      destroying := hdestroying
      holding_iff := by
        intro u i
        rw [hsame, hacquired, hreleased]
        exact hc.holding_iff u i
      -- only the call of `t` changes its phase, and it was fresh before
      fresh := by
        intro u hu i
        rw [hacquired, hreleased]
        rcases eq_or_ne u t with rfl | hne
        · rw [hself] at hu
          rcases hu with hu | ⟨j, hu⟩
          · exact absurd hu hidle
          · exact hc.fresh u (.inl (hchecking j hu).1) i
        · rw [hother u hne] at hu
          exact hc.fresh u hu i }

/-- A step that changes no handle, and returns from no destroy that found one. -/
theorem Counts.silent (hc : Counts m h) {p : Phase} (hphase : m'.phase = Function.update m.phase t p)
    (hbefore : m.phase t = .idle ∨ ∃ j, m.phase t = .checking j) (hidle : p ≠ .idle)
    (hholding : ∀ i, p ≠ .holding i)
    (hchecking : ∀ i, p = .checking i → m.phase t = .idle ∧ i < m.heap.length)
    (hmarking : ∀ token i, p = .marking token i → i < m.heap.length)
    (hlength : m.heap.length ≤ m'.heap.length) (hhandle : ∀ j, m'.handle j = m.handle j)
    (hes : ∀ e ∈ es, ∀ u i, (e ≠ .acquireReturned u (some i) ∧ e ≠ .released u i) ∧
      ∀ token, e ≠ .destroyReturned u token (some i)) : Counts m' (h ++ es) := by
  refine hc.move hphase ?_ hidle hholding hchecking hmarking hlength (fun j => by rw [hhandle]) ?_ ?_
    fun e he u i => (hes e he u i).1
  · intro i hi
    rcases hbefore with hbefore | ⟨j, hbefore⟩
    · cases hbefore.symm.trans hi
    · cases hbefore.symm.trans hi
  · intro j
    rw [hhandle]
    exact hc.client j
  · intro j
    rw [hhandle, hc.destroying j]
    constructor
    · rintro ⟨u, token, he⟩
      exact ⟨u, token, List.mem_append_left _ he⟩
    · rintro ⟨u, token, he⟩
      exact ⟨u, token, (List.mem_append.mp he).resolve_right fun he => (hes _ he u j).2 token rfl⟩

omit [DecidableEq ι] in
/-- A call that comes to hold a handle, or is through, leaves the others where they are. -/
theorem Counts.others (hc : Counts m h) (hother : ∀ u, u ≠ t → m'.phase u = m.phase u)
    (hlength : m'.heap.length = m.heap.length)
    (hself : (∃ i, m'.phase t = .holding i) ∨ m'.phase t = .returned) :
    (∀ u i, m'.phase u = .checking i → i < m'.heap.length) ∧
    (∀ u token i, m'.phase u = .marking token i → i < m'.heap.length) ∧
    ∀ u, m'.phase u = .idle ∨ (∃ i, m'.phase u = .checking i) →
      u ≠ t ∧ (m.phase u = .idle ∨ ∃ i, m.phase u = .checking i) := by
  -- whoever is in any other phase is not `t`
  have hne : ∀ {u p}, m'.phase u = p → (∀ i, p ≠ .holding i) → p ≠ .returned → u ≠ t := by
    rintro u p hu hholding hreturned rfl
    rcases hself with ⟨i, hself⟩ | hself
    · exact hholding i (hu.symm.trans hself)
    · exact hreturned (hu.symm.trans hself)
  refine ⟨fun u i hu => ?_, fun u token i hu => ?_, fun u hu => ?_⟩
  · rw [hlength]
    have hut := hne hu (by simp) (by simp)
    exact hc.checking_lt u i ((hother u hut).symm.trans hu)
  · rw [hlength]
    have hut := hne hu (by simp) (by simp)
    exact hc.marking_lt u token i ((hother u hut).symm.trans hu)
  · have hut : u ≠ t := by
      rcases hu with hu | ⟨i, hu⟩
      · exact hne hu (by simp) (by simp)
      · exact hne hu (by simp) (by simp)
    rw [hother u hut] at hu
    exact ⟨hut, hu⟩

theorem Counts.acquired (hc : Counts m h) {i : ℕ} (hchecking : m.phase t = .checking i)
    (hlive : (m.handle i).destroying = false) :
    Counts ((m.set i { m.handle i with activeRequests := (m.handle i).activeRequests + 1 }).goto t
      (.holding i)) (h ++ [.acquireReturned t (some i)]) := by
  have hi := hc.checking_lt t i hchecking
  have hfresh := hc.fresh t (.inr ⟨i, hchecking⟩)
  set m' :=
    (m.set i { m.handle i with activeRequests := (m.handle i).activeRequests + 1 }).goto t (.holding i)
    with hm'
  have hself : m'.phase t = .holding i := Machine.goto_phase_self _ t _
  have hother : ∀ u, u ≠ t → m'.phase u = m.phase u := fun u hne => Machine.goto_phase_of_ne _ hne _
  have hhandle : ∀ j, m'.handle j =
      if j = i then { m.handle i with activeRequests := (m.handle i).activeRequests + 1 }
      else m.handle j := fun j => handle_set hi _
  have hlength : m'.heap.length = m.heap.length := by simp [hm', Machine.set]
  obtain ⟨hchecking_lt, hmarking_lt, hstill⟩ := hc.others hother hlength (.inl ⟨i, hself⟩)
  -- no other call is affected
  have hacquired : ∀ u j, .acquireReturned u (some j) ∈ h ++ [.acquireReturned t (some i)] ↔
      .acquireReturned u (some j) ∈ h ∨ u = t ∧ j = i := by
    intro u j
    simp
  have hreleased : ∀ u j, .released u j ∈ h ++ [.acquireReturned t (some i)] ↔ .released u j ∈ h := by
    intro u j
    simp
  have hphase : ∀ u j, m'.phase u = .holding j ↔ m.phase u = .holding j ∨ u = t ∧ j = i := by
    intro u j
    rcases eq_or_ne u t with rfl | hne
    · rw [hself, hchecking]
      simp [eq_comm]
    · rw [hother u hne]
      simp [hne]
  exact
    { checking_lt := hchecking_lt
      holding_lt := by
        intro u j hu
        rw [hlength]
        rcases (hphase u j).mp hu with hu | ⟨-, rfl⟩
        · exact hc.holding_lt u j hu
        · exact hi
      marking_lt := hmarking_lt
      active := by
        intro j
        obtain ⟨holders, hnodup, hmem, hcount⟩ := hc.active j
        rw [hhandle]
        -- the new holder is `t`, which held nothing before
        rcases eq_or_ne j i with rfl | hne
        · refine ⟨t :: holders, List.nodup_cons.mpr ⟨fun ht => ?_, hnodup⟩, fun u => ?_, ?_⟩
          · cases hchecking.symm.trans ((hmem t).mp ht)
          · rw [List.mem_cons, hmem, hphase]
            tauto
          · rw [if_pos rfl, List.length_cons, ← hcount]
        · refine ⟨holders, hnodup, fun u => ?_, ?_⟩
          · rw [hmem, hphase]
            tauto
          · rw [if_neg hne, hcount]
      client := by
        intro j
        rw [hhandle]
        split_ifs with hji
        · -- the handle was live, so its client is in place
          have hclient := hc.client i
          rw [hlive] at hclient
          simpa [hlive] using hclient
        · exact hc.client j
      destroying := by
        intro j
        have hold := hc.destroying j
        rw [hhandle]
        split_ifs with hji
        · subst hji
          simpa using hold
        · simpa using hold
      holding_iff := by
        intro u j
        rw [hphase, hacquired, hreleased, hc.holding_iff]
        -- `t` is fresh, so nothing of its handle has been released yet
        constructor
        · rintro (⟨hacq, hrel⟩ | ⟨rfl, rfl⟩)
          · exact ⟨.inl hacq, hrel⟩
          · exact ⟨.inr ⟨rfl, rfl⟩, (hfresh j).2⟩
        · rintro ⟨hacq | heq, hrel⟩
          · exact .inl ⟨hacq, hrel⟩
          · exact .inr heq
      fresh := by
        intro u hu j
        obtain ⟨hne, hu⟩ := hstill u hu
        rw [hacquired, hreleased]
        have hold := hc.fresh u hu j
        tauto }

/-- The end of a call that held a handle. -/
theorem Counts.released (hc : Counts m h) {i : ℕ} (hholding : m.phase t = .holding i) :
    Counts ((m.set i (m.handle i).released).goto t .returned) (h ++ [.released t i]) := by
  have hi := hc.holding_lt t i hholding
  set m' := (m.set i (m.handle i).released).goto t .returned with hm'
  have hself : m'.phase t = .returned := Machine.goto_phase_self _ t _
  have hother : ∀ u, u ≠ t → m'.phase u = m.phase u := fun u hne => Machine.goto_phase_of_ne _ hne _
  have hhandle : ∀ j, m'.handle j = if j = i then (m.handle i).released else m.handle j :=
    fun j => handle_set hi _
  have hlength : m'.heap.length = m.heap.length := by simp [hm', Machine.set]
  obtain ⟨hchecking_lt, hmarking_lt, hstill⟩ := hc.others hother hlength (.inr hself)
  have hphase : ∀ u j, m'.phase u = .holding j ↔ m.phase u = .holding j ∧ u ≠ t := by
    intro u j
    rcases eq_or_ne u t with rfl | hne
    · rw [hself]
      simp
    · rw [hother u hne]
      simp [hne]
  have hacquired : ∀ u j, .acquireReturned u (some j) ∈ h ++ [.released t i] ↔
      .acquireReturned u (some j) ∈ h := by
    intro u j
    simp
  have hreleased : ∀ u j, .released u j ∈ h ++ [.released t i] ↔
      .released u j ∈ h ∨ u = t ∧ j = i := by
    intro u j
    simp
  -- the call is counted, so the guard against underflow holds
  obtain ⟨holders, hnodup, hmem, hcount⟩ := hc.active i
  have hcall : t ∈ holders := (hmem t).mpr hholding
  have hpos : 0 < (m.handle i).activeRequests := hcount ▸ List.length_pos_of_mem hcall
  have hactive : (m.handle i).released.activeRequests = (m.handle i).activeRequests - 1 := if_pos hpos
  exact
    { checking_lt := hchecking_lt
      holding_lt := by
        intro u j hu
        rw [hlength]
        exact hc.holding_lt u j ((hphase u j).mp hu).1
      marking_lt := hmarking_lt
      active := by
        intro j
        rw [hhandle]
        -- `t` leaves the holders of `i`, and held no other handle
        rcases eq_or_ne j i with rfl | hne
        · refine ⟨holders.erase t, hnodup.erase t, fun u => ?_, ?_⟩
          · rw [hnodup.mem_erase_iff, hmem, hphase, and_comm]
          · rw [if_pos rfl, hactive, hcount, List.length_erase_of_mem hcall]
        · obtain ⟨holders', hnodup', hmem', hcount'⟩ := hc.active j
          refine ⟨holders', hnodup', fun u => ?_, ?_⟩
          · rw [hmem', hphase]
            refine ⟨fun hu => ⟨hu, ?_⟩, And.left⟩
            rintro rfl
            exact hne (Phase.holding.inj (hu.symm.trans hholding))
          · rw [if_neg hne, hcount']
      client := by
        intro j
        rw [hhandle]
        split_ifs with hji
        · rw [hactive]
          show (if (m.handle i).destroying = true ∧ (m.handle i).released.activeRequests = 0 then false
            else (m.handle i).client) = false ↔ (m.handle i).destroying = true ∧ _
          rw [hactive]
          split_ifs with hfree
          · exact iff_of_true rfl hfree
          · refine ⟨fun hclient => ?_, fun hboth => absurd hboth hfree⟩
            have hzero := ((hc.client i).mp hclient).2
            omega
        · exact hc.client j
      destroying := by
        intro j
        have hold := hc.destroying j
        rw [hhandle]
        split_ifs with hji
        · subst hji
          simpa [ClientHandle.released] using hold
        · simpa using hold
      holding_iff := by
        intro u j
        rw [hphase, hacquired, hreleased, hc.holding_iff]
        constructor
        · rintro ⟨⟨hacq, hrel⟩, hne⟩
          exact ⟨hacq, by tauto⟩
        · rintro ⟨hacq, hrel⟩
          refine ⟨⟨hacq, fun hmem => hrel (.inl hmem)⟩, ?_⟩
          -- the call held one handle only
          rintro rfl
          have hu := (hc.holding_iff u j).mpr ⟨hacq, fun hmem => hrel (.inl hmem)⟩
          exact hrel (.inr ⟨rfl, Phase.holding.inj (hu.symm.trans hholding)⟩)
      fresh := by
        intro u hu j
        obtain ⟨hne, hu⟩ := hstill u hu
        rw [hacquired, hreleased]
        have hold := hc.fresh u hu j
        tauto }

/-- A handle is marked. -/
theorem Counts.marked (hc : Counts m h) {token i : ℕ} (hmarking : m.phase t = .marking token i) :
    Counts ((m.set i (m.handle i).marked).goto t .returned)
      (h ++ [.destroyReturned t token (some i)]) := by
  have hhandle : ∀ j, ((m.set i (m.handle i).marked).goto t .returned).handle j =
      if j = i then (m.handle i).marked else m.handle j :=
    fun j => handle_set (hc.marking_lt t token i hmarking) _
  refine hc.move (p := .returned) rfl ?_ (by simp) (by simp) (by simp) (by simp)
    (by simp [Machine.set]) ?_ ?_ ?_ (by simp)
  · intro j hj
    cases hmarking.symm.trans hj
  · intro j
    rw [hhandle]
    split_ifs with hji
    · rw [hji]
      rfl
    · rfl
  · intro j
    rw [hhandle]
    split_ifs with hji
    · -- the client goes where no call holds the handle
      have hclient := hc.client i
      unfold ClientHandle.marked
      by_cases hzero : (m.handle i).activeRequests = 0
      · simp [hzero]
      · simp only [hzero, and_false, iff_false, if_false] at hclient ⊢
        exact hclient
    · exact hc.client j
  · intro j
    rw [hhandle]
    have hdestroying := hc.destroying j
    split_ifs with hji
    · exact ⟨fun _ => ⟨t, token, by simp [hji]⟩, fun _ => rfl⟩
    · rw [hdestroying]
      simp [hji]

theorem counts_step (hr : Registry m h) (hc : Counts m h) (hstep : Stepped m m' es) :
    Counts m' (h ++ es) := by
  -- the table points into the heap, which is what a found or an erased token needs
  have hindex : ∀ token i, m.handles.lookup token = some i → i < m.heap.length := by
    intro token i hsome
    obtain ⟨u, he⟩ := hr.registered token i hsome
    exact hr.created_index u token i he
  cases hstep with
  | refused t hidle =>
    exact hc.silent (p := .returned) rfl (.inl hidle) (by simp) (by simp) (by simp) (by simp) (le_refl _)
      (fun _ => rfl) (by simp)
  | created t hidle hroom =>
    exact hc.silent (p := .returned) rfl (.inl hidle) (by simp) (by simp) (by simp) (by simp)
      (by simp [Machine.created]) (handle_created t) (by simp)
  | unknown t token hidle hnone =>
    exact hc.silent (p := .returned) rfl (.inl hidle) (by simp) (by simp) (by simp) (by simp) (le_refl _)
      (fun _ => rfl) (by simp)
  | found t token i hidle hsome =>
    refine hc.silent (p := .checking i) rfl (.inl hidle) (by simp) (by simp) ?_ (by simp) (le_refl _)
      (fun _ => rfl) (by simp)
    rintro j hj
    cases hj
    exact ⟨hidle, hindex token i hsome⟩
  | dead t i hchecking =>
    exact hc.silent (p := .returned) rfl (.inr ⟨i, hchecking⟩) (by simp) (by simp) (by simp) (by simp)
      (le_refl _) (fun _ => rfl) (by simp)
  | acquired t i hchecking hlive => exact hc.acquired hchecking hlive
  | released t i hholding => exact hc.released hholding
  | missed t token hidle hnone =>
    exact hc.silent (p := .returned) rfl (.inl hidle) (by simp) (by simp) (by simp) (by simp) (le_refl _)
      (fun _ => rfl) (by simp)
  | erased t token i hidle hsome =>
    refine hc.silent (p := .marking token i) rfl (.inl hidle) (by simp) (by simp) (by simp) ?_ (le_refl _)
      (fun _ => rfl) (by simp)
    rintro token' j hj
    cases hj
    exact hindex token i hsome
  | marked t token i hmarking => exact hc.marked hmarking

/-! ### Acquires after a destroy -/

/-- An acquire that began after a destroy of its token returned has returned null. -/
def Late (m : Machine ι) (h : List (Event ι)) : Prop :=
  ∀ before after u token r c i t, h = before ++ .destroyReturned u token r :: after →
    .created c token i ∈ before → .acquireStarted t token ∈ after →
    m.phase t = .returned ∧ .acquireReturned t none ∈ h ∧ ∀ j, .acquireReturned t (some j) ∉ h

/-- One call moves, and only it. -/
theorem Stepped.exists_call (hstep : Stepped m m' es) :
    ∃ v, m.phase v ≠ .returned ∧ (∀ u, u ≠ v → m'.phase u = m.phase u) ∧
      ∀ u j, .acquireReturned u (some j) ∈ es → u = v := by
  cases hstep with
  | refused t hidle =>
    exact ⟨t, by simp [hidle], fun u hne => Machine.goto_phase_of_ne _ hne _, by simp⟩
  | created t hidle hroom =>
    exact ⟨t, by simp [hidle], fun u hne => Machine.goto_phase_of_ne _ hne _, by simp⟩
  | unknown t token hidle hnone =>
    exact ⟨t, by simp [hidle], fun u hne => Machine.goto_phase_of_ne _ hne _, by simp⟩
  | found t token i hidle hsome =>
    exact ⟨t, by simp [hidle], fun u hne => Machine.goto_phase_of_ne _ hne _, by simp⟩
  | dead t i hchecking =>
    exact ⟨t, by simp [hchecking], fun u hne => Machine.goto_phase_of_ne _ hne _, by simp⟩
  | acquired t i hchecking hlive =>
    exact ⟨t, by simp [hchecking], fun u hne => Machine.goto_phase_of_ne _ hne _, by simp⟩
  | released t i hholding =>
    exact ⟨t, by simp [hholding], fun u hne => Machine.goto_phase_of_ne _ hne _, by simp⟩
  | missed t token hidle hnone =>
    exact ⟨t, by simp [hidle], fun u hne => Machine.goto_phase_of_ne _ hne _, by simp⟩
  | erased t token i hidle hsome =>
    exact ⟨t, by simp [hidle], fun u hne => Machine.goto_phase_of_ne _ hne _, by simp⟩
  | marked t token i hmarking =>
    exact ⟨t, by simp [hmarking], fun u hne => Machine.goto_phase_of_ne _ hne _, by simp⟩

/-- An acquire of a token that is gone returns null at once. -/
theorem Stepped.acquireStarted_of_gone (hstep : Stepped m m' es) {token : ℕ} (hgone : token ∉ m.handles)
    (hstart : .acquireStarted t token ∈ es) :
    m.phase t = .idle ∧ m'.phase t = .returned ∧
      es = [.acquireStarted t token, .acquireReturned t none] := by
  cases hstep with
  | unknown t' token' hidle hnone =>
    obtain ⟨rfl, rfl⟩ : t = t' ∧ token = token' := by simpa using hstart
    exact ⟨hidle, Machine.goto_phase_self _ _ _, rfl⟩
  | found t' token' i hidle hsome =>
    obtain ⟨rfl, rfl⟩ : t = t' ∧ token = token' := by simpa using hstart
    exact absurd (AList.lookup_isSome.mp (Option.isSome_iff_exists.mpr ⟨i, hsome⟩)) hgone
  | _ => simp at hstart

theorem late_step (hr : Registry m h) (hc : Counts m h) (hl : Late m h) (hstep : Stepped m m' es) :
    Late m' (h ++ es) := by
  intro before after u token r c i t heq hcreated hstart
  rcases append_eq_append_cons heq with ⟨after', rfl, rfl⟩ | ⟨before', -, hes⟩
  · rcases List.mem_append.mp hstart with hstart | hstart
    · -- the call has returned, so it is not the one that moves
      obtain ⟨hphase, hnull, hnever⟩ := hl before after' u token r c i t rfl hcreated hstart
      obtain ⟨v, hv, hother, hacquired⟩ := hstep.exists_call
      have hne : t ≠ v := by
        rintro rfl
        exact hv hphase
      refine ⟨(hother t hne).trans hphase, List.mem_append_left _ hnull, fun j hmem => ?_⟩
      rcases List.mem_append.mp hmem with hmem | hmem
      · exact hnever j hmem
      · exact hne (hacquired t j hmem)
    -- the token is out of the table, so this acquire fails at once
    · obtain ⟨hidle, hphase, rfl⟩ :=
        hstep.acquireStarted_of_gone (hr.closed before after' u token r c i rfl hcreated) hstart
      refine ⟨hphase, by simp, fun j hmem => ?_⟩
      rcases List.mem_append.mp hmem with hmem | hmem
      · exact (hc.fresh t (.inl hidle) j).1 hmem
      · simp at hmem
  · -- no acquire begins in the step that returns from a destroy
    have hreturned : .destroyReturned u token r ∈ es := by simp [hes]
    have hstart : .acquireStarted t token ∈ es := by simp [hes, hstart]
    cases hstep <;> simp at hreturned hstart

/-! ### The life of a handle -/

omit [DecidableEq ι] in
theorem registry_init (wordBits : ℕ) : Registry ({ wordBits } : Machine ι) [] where
  next_pos := Nat.one_pos
  next_le := Nat.le_add_left 1 _
  created_token := by simp
  created_index := by simp
  tokens_nodup := List.nodup_nil
  registered := fun token i hlookup => by cases hlookup
  erased_gone := by simp
  erased_created := by simp
  marking := fun t token i ht => by cases ht
  closed := by simp

omit [DecidableEq ι] in
theorem counts_init (wordBits : ℕ) : Counts ({ wordBits } : Machine ι) [] where
  checking_lt := fun t i ht => by cases ht
  holding_lt := fun t i ht => by cases ht
  marking_lt := fun t token i ht => by cases ht
  active := fun i => ⟨[], List.nodup_nil, by simp, by simp [Machine.handle]⟩
  client := by simp [Machine.handle]
  destroying := by simp [Machine.handle]
  holding_iff := by simp
  fresh := by simp

theorem invariants_step {a : Act ι} {h' : List (Event ι)} (hs : Steps (m, h) a (m', h'))
    (hI : Registry m h ∧ Counts m h ∧ Late m h) : Registry m' h' ∧ Counts m' h' ∧ Late m' h' := by
  obtain ⟨hr, hc, hl⟩ := hI
  obtain ⟨es, hstep, rfl⟩ := hs.stepped
  exact ⟨registry_step hr hstep, counts_step hr hc hstep, late_step hr hc hl hstep⟩

theorem invariants_of_run {wordBits : ℕ} {acts : List (Act ι)}
    (hrun : Run Steps (({ wordBits } : Machine ι), []) acts (m, h)) :
    Registry m h ∧ Counts m h ∧ Late m h :=
  hrun.invariant (I := fun s => Registry s.1 s.2 ∧ Counts s.1 s.2 ∧ Late s.1 s.2)
    (fun _ _ _ hI hs => invariants_step hs hI)
    ⟨registry_init wordBits, counts_init wordBits, by simp [Late]⟩

/-- The life of the client handles. -/
structure Lifecycle (m : Machine ι) (h : List (Event ι)) : Prop where
  token_ne_zero : ∀ t token i, .created t token i ∈ h → token ≠ 0
  tokens_nodup : (tokens h).Nodup
  /-- A client is reset only where a destroy has marked its handle and no request is active. -/
  reset : ∀ a m' h' i, Steps (m, h) a (m', h') → (m.handle i).client = true →
    (m'.handle i).client = false →
    (m'.handle i).destroying = true ∧ (m'.handle i).activeRequests = 0
  /-- The client stays in place from a successful acquire to its release. -/
  held : ∀ t i, .acquireReturned t (some i) ∈ h → .released t i ∉ h → (m.handle i).client = true
  /-- An acquire that begins after a destroy of the handle returned yields null. -/
  late : ∀ before after u token r c i t, h = before ++ .destroyReturned u token r :: after →
    .created c token i ∈ before → .acquireStarted t token ∈ after →
    .acquireReturned t none ∈ h ∧ ∀ j, .acquireReturned t (some j) ∉ h
  /-- The client of a handle that is destroyed and released is reset. -/
  freed : ∀ u token i, .destroyReturned u token (some i) ∈ h →
    (∀ t, .acquireReturned t (some i) ∈ h → .released t i ∈ h) → (m.handle i).client = false
  /-- Another destroy of a token only returns. -/
  again : ∀ u token i t m' h', .erased u token i ∈ h → Steps (m, h) (.destroy t token) (m', h') →
    m' = m.goto t .returned ∧ h' = h ++ [.destroyReturned t token none]

/-- **Every run of creates, destroys and acquires keeps the life of the handles.** -/
theorem lifecycle_of_run {wordBits : ℕ} {acts : List (Act ι)}
    (hrun : Run Steps (({ wordBits } : Machine ι), []) acts (m, h)) : Lifecycle m h := by
  obtain ⟨hr, hc, hl⟩ := invariants_of_run hrun
  exact
    { token_ne_zero := fun t token i he => (hr.created_token t token i he).1
      tokens_nodup := hr.tokens_nodup
      reset := by
        intro a m' h' i hs _ hgone
        exact ((invariants_step hs ⟨hr, hc, hl⟩).2.1.client i).mp hgone
      held := by
        intro t i hacquired hreleased
        obtain ⟨holders, -, hmem, hcount⟩ := hc.active i
        have hholder : t ∈ holders := (hmem t).mpr ((hc.holding_iff t i).mpr ⟨hacquired, hreleased⟩)
        have hpos := List.length_pos_of_mem hholder
        rw [← Bool.not_eq_false, hc.client i]
        rintro ⟨-, hzero⟩
        omega
      late := fun before after u token r c i t heq hcreated hstart =>
        (hl before after u token r c i t heq hcreated hstart).2
      freed := by
        intro u token i hdestroyed hall
        refine (hc.client i).mpr ⟨(hc.destroying i).mpr ⟨u, token, hdestroyed⟩, ?_⟩
        obtain ⟨holders, -, hmem, hcount⟩ := hc.active i
        rw [hcount, List.length_eq_zero_iff, List.eq_nil_iff_forall_not_mem]
        intro t ht
        obtain ⟨hacquired, hreleased⟩ := (hc.holding_iff t i).mp ((hmem t).mp ht)
        exact hreleased (hall t hacquired)
      again := by
        intro u token i t m' h' herased hs
        obtain ⟨r, hact, heq⟩ := Option.map_eq_some_iff.mp hs
        have hnone := AList.lookup_eq_none.mpr (hr.erased_gone u token i herased)
        rw [Machine.act] at hact
        split_ifs at hact
        rw [Machine.destroy, hnone] at hact
        cases hact
        obtain ⟨rfl, rfl⟩ := Prod.mk.inj heq
        exact ⟨rfl, rfl⟩ }

end

/-- A destroy between the acquire and the release of another call: the release drops the client. -/
theorem lifecycle_of_run_release : ∃ m h,
    Run Steps (({ wordBits := 64 } : Machine ℕ), [])
      [.create 0, .acquire 1 3, .check 1, .destroy 2 3, .mark 2, .release 1] (m, h) ∧
    h = [.created 0 3 0, .acquireStarted 1 3, .acquireReturned 1 (some 0), .erased 2 3 0,
      .destroyReturned 2 3 (some 0), .released 1 0] ∧
    (m.handle 0).client = false ∧ Lifecycle m h := by
  have hrun : Run Steps (({ wordBits := 64 } : Machine ℕ), [])
      [.create 0, .acquire 1 3, .check 1, .destroy 2 3, .mark 2, .release 1] _ :=
    Run.of_foldlM (f := next) rfl
  exact ⟨_, _, hrun, rfl, rfl, lifecycle_of_run hrun⟩

end AsterNet.Abi.Handles
