import AsterNet.Connection.ConnectionPool
import Mathlib.Algebra.BigOperators.Group.List.Basic

/-!
# The accounts of the connection pool

`Inv` ties the two maps of a pool to the history of its leases: the table of leases is the list of
outstanding ones, an entry counts those of its key, and remembers its last use.  `inv_apply` shows that
every section preserves it, and `accounted_of_run` draws the accounts from it (`Accounted`).
-/

namespace AsterNet

namespace ConnectionPool

open ByteString Transition

/-! ### Keys -/

theorem protocolCode_inj {p q : Protocol} (h : protocolCode p = protocolCode q) : p = q := by
  cases p <;> cases q <;> first | rfl | cases h

/-- **Distinct origins have distinct keys.**  The three fields after the host hold no line break, whatever
the host holds. -/
theorem keyFor_injective : Function.Injective keyFor := by
  intro origin origin' h
  have hbreak : ∀ n, (10 : UInt8) ∉ decimal n := notMem_decimal (by decide)
  -- the fields come off from the right
  obtain ⟨hrest, hepoch⟩ := append_cons_inj_of_notMem_right (hbreak _) (hbreak _) h
  obtain ⟨hrest, hprotocol⟩ := append_cons_inj_of_notMem_right (hbreak _) (hbreak _) hrest
  obtain ⟨hhost, hport⟩ := append_cons_inj_of_notMem_right (hbreak _) (hbreak _) hrest
  have hepoch := decimal_inj.mp hepoch
  have hprotocol := protocolCode_inj (decimal_inj.mp hprotocol)
  have hport := UInt16.toNat_inj.mp (decimal_inj.mp hport)
  cases origin
  cases origin'
  simp_all

/-! ### The search for the oldest idle entry -/

theorem older_cases (oldest : Option (Σ _ : Bytes, Entry)) (e : Σ _ : Bytes, Entry) :
    (e.2.activeLeases ≠ 0 ∧ older oldest e = oldest) ∨
      (e.2.activeLeases = 0 ∧ older oldest e = some e
        ∧ ∀ o, oldest = some o → e.2.lastUsedMs < o.2.lastUsedMs) ∨
      (e.2.activeLeases = 0 ∧ ∃ o, oldest = some o ∧ older oldest e = some o
        ∧ o.2.lastUsedMs ≤ e.2.lastUsedMs) := by
  unfold older
  by_cases hactive : e.2.activeLeases ≠ 0
  · exact .inl ⟨hactive, if_pos hactive⟩
  rw [if_neg hactive]
  have hidle := not_not.mp hactive
  cases oldest with
  | none => exact .inr (.inl ⟨hidle, rfl, fun o ho => by cases ho⟩)
  | some o =>
    by_cases hlt : e.2.lastUsedMs < o.2.lastUsedMs
    · refine .inr (.inl ⟨hidle, if_pos (by simpa using hlt), fun o' ho' => ?_⟩)
      cases ho'
      exact hlt
    · exact .inr (.inr ⟨hidle, o, rfl, if_neg (by simpa using hlt), by omega⟩)

/-- **The search finds an idle entry with the smallest last use, if there is an idle one.** -/
theorem oldestIdle_spec (order : List (Σ _ : Bytes, Entry)) :
    (oldestIdle order = none ∧ ∀ e ∈ order, e.2.activeLeases ≠ 0) ∨
      ∃ oldest ∈ order, oldestIdle order = some oldest ∧ oldest.2.activeLeases = 0 ∧
        ∀ e ∈ order, e.2.activeLeases = 0 → oldest.2.lastUsedMs ≤ e.2.lastUsedMs := by
  unfold oldestIdle
  -- `max_element` goes over the entries once: induction from the back
  induction order using List.reverseRecOn with
  | nil => exact .inl ⟨rfl, fun e he => by simp at he⟩
  | append_singleton order e ih =>
    rw [List.foldl_append]
    simp only [List.foldl_cons, List.foldl_nil, List.mem_append, List.mem_singleton]
    rcases older_cases (order.foldl older none) e with
      ⟨hactive, heq⟩ | ⟨hidle, heq, hlt⟩ | ⟨hidle, o, ho, heq, hle⟩
    · -- a leased entry changes nothing
      rw [heq]
      rcases ih with ⟨hnone, hall⟩ | ⟨oldest, hmem, hsome, hfree, hleast⟩
      · refine .inl ⟨hnone, ?_⟩
        rintro e' (he' | rfl)
        · exact hall e' he'
        · exact hactive
      · refine .inr ⟨oldest, .inl hmem, hsome, hfree, ?_⟩
        rintro e' (he' | rfl) hfree'
        · exact hleast e' he' hfree'
        · exact absurd hfree' hactive
    · -- an idle entry that is the first one or older than the one found
      rw [heq]
      refine .inr ⟨e, .inr rfl, rfl, hidle, ?_⟩
      rintro e' (he' | rfl) hfree'
      · rcases ih with ⟨-, hall⟩ | ⟨oldest, -, hsome, -, hleast⟩
        · exact absurd hfree' (hall e' he')
        · have hbefore := hleast e' he' hfree'
          have hafter := hlt oldest hsome
          omega
      · exact le_refl _
    · -- an idle entry that is not older
      rw [heq]
      rcases ih with ⟨hnone, -⟩ | ⟨oldest, hmem, hsome, hfree, hleast⟩
      · cases hnone.symm.trans ho
      · obtain rfl : oldest = o := Option.some.inj (hsome.symm.trans ho)
        refine .inr ⟨oldest, .inl hmem, rfl, hfree, ?_⟩
        rintro e' (he' | rfl) hfree'
        · exact hleast e' he' hfree'
        · exact hle

/-! ### Histories -/

theorem outstanding_sublist (history : List Event) :
    (outstanding history).Sublist (handedOut history) := by
  induction history with
  | nil => exact .refl _
  | cons event history ih =>
    cases event with
    | acquired nowMs lease => exact ih.cons_cons lease
    | released nowMs lease =>
      unfold outstanding handedOut
      split_ifs
      · exact List.filter_sublist.trans ih
      · exact ih
    | cleared => exact List.nil_sublist _

/-- The outstanding leases of an entry. -/
def heldOn (key : Bytes) (history : List Event) : ℕ :=
  (outstanding history).countP fun held => keyFor held.origin == key

theorem heldOn_pos_iff {key : Bytes} {history : List Event} :
    0 < heldOn key history ↔ ∃ held ∈ outstanding history, keyFor held.origin = key := by
  unfold heldOn
  rw [List.countP_pos_iff]
  simp only [beq_iff_eq]

/-- A history's event ends a lease. -/
def Event.Ends (lease : ConnectionLease) : Event → Prop
  | .acquired _ _ => False
  | .released _ ended => ended.valid = true ∧ ended.id = lease.id
  | .cleared => True

theorem handedOut_subset_append (newer older : List Event) :
    handedOut older ⊆ handedOut (newer ++ older) := by
  induction newer with
  | nil => exact List.Subset.refl _
  | cons event newer ih =>
    cases event with
    | acquired nowMs lease => exact List.subset_cons_of_subset lease ih
    | released nowMs lease => exact ih
    | cleared => exact ih

/-- **A lease that has ended stays ended**, for no other one gets its id. -/
theorem not_outstanding_of_ends {newer older : List Event} {event : Event} {lease : ConnectionLease}
    (hnodup : ((handedOut (newer ++ event :: older)).map ConnectionLease.id).Nodup)
    (hlease : lease ∈ handedOut older) (hends : event.Ends lease) :
    ∀ held ∈ outstanding (newer ++ event :: older), held.id ≠ lease.id := by
  -- the induction is on the events behind the one that ended it
  induction newer with
  | nil =>
    cases event with
    | acquired nowMs lease => cases hends
    -- the release takes every lease with the id out
    | released nowMs ended =>
      obtain ⟨hvalid, hid⟩ := hends
      intro held hheld
      simp only [List.nil_append, outstanding, if_pos hvalid, List.mem_filter, bne_iff_ne] at hheld
      rw [← hid]
      exact hheld.2
    | cleared => exact fun held hheld => by cases hheld
  | cons later newer ih =>
    cases later with
    | acquired nowMs lease' =>
      obtain ⟨hnew, hrest⟩ := List.nodup_cons.mp hnodup
      -- a new lease has an id that no earlier one has
      rintro held hheld
      rcases List.mem_cons.mp hheld with rfl | hheld
      · rintro hid
        have hmem : lease ∈ handedOut (newer ++ event :: older) :=
          handedOut_subset_append newer _ (handedOut_subset_append [event] older hlease)
        exact hnew (List.mem_map.mpr ⟨lease, hmem, hid.symm⟩)
      · exact ih hrest held hheld
    -- a release takes leases out, and puts none in
    | released nowMs ended =>
      intro held hheld
      refine ih hnodup held ?_
      simp only [List.cons_append, outstanding] at hheld
      split_ifs at hheld
      · exact List.mem_of_mem_filter hheld
      · exact hheld
    | cleared => exact fun held hheld => by cases hheld

/-- Keys that are all listed once share out a list. -/
theorem sum_countP_eq_length {α κ : Type} [BEq κ] [LawfulBEq κ] {keys : List κ} (hnodup : keys.Nodup)
    (f : α → κ) {l : List α} (hmem : ∀ x ∈ l, f x ∈ keys) :
    (keys.map fun k => l.countP fun x => f x == k).sum = l.length := by
  induction l with
  | nil => simp
  | cons x l ih =>
    have hone : (keys.map fun k => if (f x == k) = true then 1 else 0).sum = 1 := by
      have hcount : ∀ ks : List κ,
          (ks.map fun k => if (f x == k) = true then 1 else 0).sum = ks.count (f x) := by
        intro ks
        induction ks with
        | nil => rfl
        | cons k ks ihks =>
          rw [List.map_cons, List.sum_cons, ihks, List.count_cons, Nat.add_comm, Bool.beq_comm]
      rw [hcount, List.count_eq_one_of_mem hnodup (hmem x List.mem_cons_self)]
    simp only [List.countP_cons, List.length_cons]
    rw [List.sum_map_add, ih fun y hy => hmem y (List.mem_cons_of_mem _ hy), hone]

/-! ### What the sections leave as it was -/

theorem networkEpoch_evictOldest (order : List (Σ _ : Bytes, Entry)) (s : State) :
    (ConnectionPool.evictOldest order s).networkEpoch = s.networkEpoch := by
  unfold ConnectionPool.evictOldest
  split <;> rfl

theorem mem_of_mem_evictOldest {order : List (Σ _ : Bytes, Entry)} {s : State} {key : Bytes}
    (hkey : key ∈ (ConnectionPool.evictOldest order s).entries) : key ∈ s.entries := by
  unfold ConnectionPool.evictOldest at hkey
  split at hkey
  · exact (AList.mem_erase.mp hkey).2
  · exact hkey

/-- An `acquire` adds no key but that of its origin, and a lease it gives is for this origin. -/
theorem acquire_frame (order : List (Σ _ : Bytes, Entry)) (nowMs : ℤ) (origin : Origin) (s : State) :
    (acquire order nowMs origin s).2.networkEpoch = s.networkEpoch ∧
      (∀ key ∈ (acquire order nowMs origin s).2.entries, key = keyFor origin ∨ key ∈ s.entries) ∧
      ((acquire order nowMs origin s).1.valid = true →
        (acquire order nowMs origin s).1.origin = origin) := by
  have hkept : ∀ key ∈ (ConnectionPool.evictOldest order s).entries,
      key = keyFor origin ∨ key ∈ s.entries :=
    fun key hkey => .inr (mem_of_mem_evictOldest hkey)
  have hlease : ∀ s' : State, (∀ key ∈ s'.entries, key = keyFor origin ∨ key ∈ s.entries) →
      ∀ key ∈ (lease nowMs origin s').2.entries, key = keyFor origin ∨ key ∈ s.entries := by
    intro s' hs' key hkey
    rcases (AList.mem_insert _).mp hkey with rfl | hkey
    · exact .inl rfl
    · exact hs' key hkey
  unfold acquire
  dsimp only
  split_ifs
  · exact ⟨rfl, fun key hkey => .inr hkey, by simp [noLease]⟩
  · exact ⟨networkEpoch_evictOldest order s, hkept, by simp [noLease]⟩
  · exact ⟨networkEpoch_evictOldest order s, hlease _ hkept, fun _ => rfl⟩
  · exact ⟨rfl, hlease s fun key hkey => .inr hkey, fun _ => rfl⟩

/-- A `release` adds no key. -/
theorem release_frame (nowMs : ℤ) (lease : ConnectionLease) (success : Bool) (s : State) :
    (release nowMs lease success s).networkEpoch = s.networkEpoch ∧
      ∀ key ∈ (release nowMs lease success s).entries, key ∈ s.entries := by
  unfold release
  split_ifs
  · exact ⟨rfl, fun key hkey => hkey⟩
  cases s.leases.lookup lease.id with
  | none => exact ⟨rfl, fun key hkey => hkey⟩
  | some key =>
    refine ⟨rfl, fun key' hkey' => ?_⟩
    dsimp only at hkey'
    split at hkey'
    · case h_1 entry hentry =>
      rcases (AList.mem_insert _).mp hkey' with rfl | hkey'
      · exact AList.lookup_isSome.mp (by rw [hentry]; rfl)
      · exact hkey'
    · exact hkey'

/-! ### The invariant -/

/-- The ties between the history of the leases and the pool. -/
structure Inv (history : List Event) (s : State) : Prop where
  maxOrigins_pos : 0 < s.maxOrigins
  size_le : s.entries.entries.length ≤ s.maxOrigins
  nextLeaseId_pos : 0 < s.nextLeaseId
  leases_eq : s.leases.entries = (outstanding history).map fun held => ⟨held.id, keyFor held.origin⟩
  present : ∀ held ∈ outstanding history, keyFor held.origin ∈ s.entries
  active : ∀ key entry, s.entries.lookup key = some entry → entry.activeLeases = heldOn key history
  used : ∀ key entry, s.entries.lookup key = some entry → lastUse key history = some entry.lastUsedMs
  ids : ∀ lease ∈ handedOut history, lease.valid = true ∧ 0 < lease.id ∧ lease.id < s.nextLeaseId
  ids_nodup : ((handedOut history).map ConnectionLease.id).Nodup

section

variable {history : List Event} {s : State} {order : List (Σ _ : Bytes, Entry)} {key : Bytes}
  {nowMs : ℤ} {origin : Origin}

theorem inv_new (maxOrigins : ℕ) : Inv [] (new maxOrigins) where
  maxOrigins_pos := by
    show 0 < if maxOrigins = 0 then 1 else maxOrigins
    split_ifs <;> omega
  size_le := Nat.zero_le _
  nextLeaseId_pos := Nat.one_pos
  leases_eq := rfl
  present := fun held hheld => by cases hheld
  active := fun key entry hentry => by cases hentry
  used := fun key entry hentry => by cases hentry
  ids := fun lease hlease => by cases hlease
  ids_nodup := List.nodup_nil

/-- The lease table by id. -/
theorem Inv.lookup_leases_iff (h : Inv history s) {id : ℕ} :
    s.leases.lookup id = some key ↔
      ∃ held ∈ outstanding history, held.id = id ∧ keyFor held.origin = key := by
  rw [← Option.mem_def, AList.mem_lookup_iff, h.leases_eq, List.mem_map]
  constructor
  · rintro ⟨held, hheld, heq⟩
    cases heq
    exact ⟨held, hheld, rfl, rfl⟩
  · rintro ⟨held, hheld, rfl, rfl⟩
    exact ⟨held, hheld, rfl⟩

/-- An id stands for one lease. -/
theorem Inv.eq_of_id_eq (h : Inv history s) {held held' : ConnectionLease}
    (hheld : held ∈ handedOut history) (hheld' : held' ∈ handedOut history) (hid : held.id = held'.id) : held = held' :=
  List.inj_on_of_nodup_map h.ids_nodup hheld hheld' hid

/-- An entry the search meets. -/
theorem lookup_of_mem_order (hperm : order.Perm s.entries.entries) {e : Σ _ : Bytes, Entry}
    (he : e ∈ order) : s.entries.lookup e.1 = some e.2 :=
  AList.mem_lookup_iff.mpr (hperm.mem_iff.mp he)

/-- Room is made by evicting an idle entry with the smallest last use, or all entries are leased. -/
theorem evictOldest_cases (hperm : order.Perm s.entries.entries) :
    (evictOldest order s = s ∧ ∀ key entry, s.entries.lookup key = some entry → entry.activeLeases ≠ 0) ∨
      ∃ key entry, s.entries.lookup key = some entry ∧ entry.activeLeases = 0 ∧
        evictOldest order s = { s with entries := s.entries.erase key, evictions := s.evictions + 1 } ∧
        ∀ key' entry', s.entries.lookup key' = some entry' → entry'.activeLeases = 0 →
          entry.lastUsedMs ≤ entry'.lastUsedMs := by
  unfold evictOldest
  have hmem : ∀ {key : Bytes} {entry : Entry}, s.entries.lookup key = some entry →
      (⟨key, entry⟩ : Σ _ : Bytes, Entry) ∈ order := fun hentry =>
    hperm.mem_iff.mpr (AList.mem_lookup_iff.mp hentry)
  rcases oldestIdle_spec order with ⟨hnone, hall⟩ | ⟨oldest, holdest, hsome, hidle, hleast⟩
  · rw [hnone]
    exact .inl ⟨rfl, fun key entry hentry => hall _ (hmem hentry)⟩
  · rw [hsome]
    exact .inr ⟨oldest.1, oldest.2, lookup_of_mem_order hperm holdest, hidle, rfl,
      fun key' entry' hentry => hleast _ (hmem hentry)⟩

/-- Evicting keeps the accounts: no lease is held on the entry that goes. -/
theorem Inv.evictOldest (h : Inv history s) (hperm : order.Perm s.entries.entries) :
    Inv history (evictOldest order s) := by
  rcases evictOldest_cases hperm with ⟨heq, -⟩ | ⟨key, entry, hentry, hidle, heq, -⟩
  · rw [heq]
    exact h
  rw [heq]
  have hfree : ¬ 0 < heldOn key history := by
    rw [← h.active key entry hentry]
    omega
  exact
    { h with
      size_le := (UnorderedMap.length_erase_le _ _).trans h.size_le
      present := by
        intro held hheld
        refine AList.mem_erase.mpr ⟨?_, h.present held hheld⟩
        rintro rfl
        exact hfree (heldOn_pos_iff.mpr ⟨held, hheld, rfl⟩)
      active := fun key' entry' hentry' =>
        h.active key' entry' (UnorderedMap.lookup_of_lookup_erase hentry')
      used := fun key' entry' hentry' =>
        h.used key' entry' (UnorderedMap.lookup_of_lookup_erase hentry') }

theorem heldOn_acquired (key : Bytes) (nowMs : ℤ) (lease : ConnectionLease) (history : List Event) :
    heldOn key (.acquired nowMs lease :: history) =
      heldOn key history + if keyFor lease.origin = key then 1 else 0 := by
  show List.countP _ (lease :: outstanding history) = _
  rw [List.countP_cons]
  simp only [beq_iff_eq]
  rfl

/-- An entry that is not there holds no leases. -/
theorem Inv.heldOn_eq_zero (h : Inv history s) (hkey : key ∉ s.entries) : heldOn key history = 0 := by
  by_contra hne
  obtain ⟨held, hheld, rfl⟩ := heldOn_pos_iff.mp (Nat.pos_of_ne_zero hne)
  exact hkey (h.present held hheld)

/-- The entry a lease is taken on, new or not, counts the leases before it. -/
theorem Inv.getD_active (h : Inv history s) (key : Bytes) :
    ((s.entries.lookup key).getD {}).activeLeases = heldOn key history := by
  rcases hlookup : s.entries.lookup key with - | entry
  · exact (h.heldOn_eq_zero (AList.lookup_eq_none.mp hlookup)).symm
  · exact h.active key entry hlookup

/-- A new lease on an entry that is there or has room. -/
theorem Inv.acquired (h : Inv history s) (nowMs : ℤ)
    (hroom : s.entries.entries.length < s.maxOrigins ∨ keyFor origin ∈ s.entries) :
    Inv (.acquired nowMs (lease nowMs origin s).1 :: history) (lease nowMs origin s).2 where
  maxOrigins_pos := h.maxOrigins_pos
  size_le := by
    -- the key takes the free place, or has one already
    show (s.entries.insert (keyFor origin) _).entries.length ≤ s.maxOrigins
    rcases hroom with hroom | hroom
    · exact (UnorderedMap.length_insert_le _ _ _).trans hroom
    · rw [UnorderedMap.length_insert_of_mem hroom]
      exact h.size_le
  nextLeaseId_pos := Nat.succ_pos _
  leases_eq := by
    -- ids are handed out in order, so the next one was not used
    have hfresh : s.nextLeaseId ∉ s.leases := by
      rw [← AList.lookup_eq_none]
      rcases hlookup : s.leases.lookup s.nextLeaseId with - | key
      · rfl
      · obtain ⟨held, hheld, hid, -⟩ := h.lookup_leases_iff.mp hlookup
        have hlt := (h.ids held ((outstanding_sublist history).subset hheld)).2.2
        omega
    show (s.leases.insert s.nextLeaseId (keyFor origin)).entries = _
    rw [AList.entries_insert_of_notMem hfresh, h.leases_eq]
    rfl
  present := by
    intro held hheld
    refine (AList.mem_insert _).mpr ?_
    rcases List.mem_cons.mp hheld with rfl | hheld
    · exact .inl rfl
    · exact .inr (h.present held hheld)
  -- one more lease on the key, none on the others
  active := by
    intro key entry hentry
    rw [heldOn_acquired, lease_fst_origin]
    rcases UnorderedMap.lookup_insert_cases hentry with ⟨rfl, rfl⟩ | ⟨hne, hentry⟩
    · rw [if_pos rfl, ← h.getD_active]
    · rw [if_neg (Ne.symm hne), h.active key entry hentry]
      rfl
  used := by
    intro key entry hentry
    unfold lastUse
    rw [lease_fst_origin]
    rcases UnorderedMap.lookup_insert_cases hentry with ⟨rfl, rfl⟩ | ⟨hne, hentry⟩
    · exact if_pos rfl
    · rw [if_neg (Ne.symm hne)]
      exact h.used key entry hentry
  ids := by
    intro lease hlease
    rcases List.mem_cons.mp hlease with rfl | hlease
    · exact ⟨rfl, h.nextLeaseId_pos, Nat.lt_succ_self _⟩
    · obtain ⟨hvalid, hpos, hlt⟩ := h.ids lease hlease
      exact ⟨hvalid, hpos, hlt.trans (Nat.lt_succ_self _)⟩
  -- the new id is above all earlier ones
  ids_nodup := by
    refine List.nodup_cons.mpr ⟨?_, h.ids_nodup⟩
    intro hmem
    obtain ⟨lease, hlease, hid⟩ := List.mem_map.mp hmem
    have hlt := (h.ids lease hlease).2.2
    rw [hid] at hlt
    exact lt_irrefl _ hlt

/-- **A lease that is not held is released in vain.** -/
theorem Inv.release_eq_self (h : Inv history s) {lease : ConnectionLease}
    (hout : lease.valid = true → ∀ held ∈ outstanding history, held.id ≠ lease.id) (nowMs : ℤ)
    (success : Bool) : release nowMs lease success s = s := by
  unfold release
  split_ifs with hnone
  · rfl
  · have hvalid : lease.valid = true := by
      rw [← Bool.not_eq_false]
      exact fun hfalse => hnone (.inl hfalse)
    rcases hlookup : s.leases.lookup lease.id with - | key
    · rfl
    · obtain ⟨held, hheld, hid, -⟩ := h.lookup_leases_iff.mp hlookup
      exact absurd hid (hout hvalid held hheld)

/-- A release in vain leaves the history's accounts. -/
theorem Inv.released_of_not_held (h : Inv history s) {lease : ConnectionLease}
    (hout : lease.valid = true → ∀ held ∈ outstanding history, held.id ≠ lease.id) :
    Inv (.released nowMs lease :: history) s := by
  have hsame : outstanding (.released nowMs lease :: history) = outstanding history := by
    show (if lease.valid then (outstanding history).filter _ else outstanding history) = _
    split_ifs with hvalid
    · refine List.filter_eq_self.mpr fun held hheld => ?_
      simpa using hout hvalid held hheld
    · rfl
  have hheldOn : ∀ key, heldOn key (.released nowMs lease :: history) = heldOn key history := by
    intro key
    unfold heldOn
    rw [hsame]
  have hused : ∀ key, lastUse key (.released nowMs lease :: history) = lastUse key history := by
    intro key
    refine if_neg ?_
    rintro ⟨hvalid, held, hheld, hid, -⟩
    exact hout hvalid held hheld hid
  exact
    { h with
      leases_eq := by rw [hsame]; exact h.leases_eq
      present := by rw [hsame]; exact h.present
      active := fun key entry hentry => by rw [hheldOn]; exact h.active key entry hentry
      used := fun key entry hentry => by rw [hused]; exact h.used key entry hentry }

/-- The leases that stay when one is released. -/
theorem Inv.heldOn_released (h : Inv history s) {held lease : ConnectionLease}
    (hvalid : lease.valid = true) (hheld : held ∈ outstanding history) (hid : held.id = lease.id)
    (key : Bytes) :
    heldOn key (.released nowMs lease :: history) + (if keyFor held.origin = key then 1 else 0) =
      heldOn key history := by
  have hnodup : (outstanding history).Nodup :=
    (List.Nodup.of_map _ h.ids_nodup).sublist (outstanding_sublist history)
  -- one lease goes: the only one with the id
  have herase : outstanding (.released nowMs lease :: history) = (outstanding history).erase held := by
    show (if lease.valid then (outstanding history).filter _ else outstanding history) = _
    rw [if_pos hvalid, hnodup.erase_eq_filter]
    refine List.filter_congr fun held' hheld' => ?_
    rw [Bool.eq_iff_iff, bne_iff_ne, bne_iff_ne, not_iff_not]
    constructor
    · intro heq
      exact h.eq_of_id_eq ((outstanding_sublist history).subset hheld')
        ((outstanding_sublist history).subset hheld) (heq.trans hid.symm)
    · rintro rfl
      exact hid
  unfold heldOn
  rw [herase, List.countP_erase]
  by_cases hkey : keyFor held.origin = key
  · have hpos : 0 < (outstanding history).countP fun held => keyFor held.origin == key :=
      List.countP_pos_iff.mpr ⟨held, hheld, by simpa using hkey⟩
    rw [if_pos ⟨hheld, by simpa using hkey⟩, if_pos hkey]
    omega
  · rw [if_neg (fun hboth => hkey (by simpa using hboth.2)), if_neg hkey]
    rfl

/-- The release of a lease that is held. -/
theorem Inv.released_of_held (h : Inv history s) {held lease : ConnectionLease}
    (hvalid : lease.valid = true) (hheld : held ∈ outstanding history) (hid : held.id = lease.id)
    (nowMs : ℤ) (success : Bool) :
    Inv (.released nowMs lease :: history) (release nowMs lease success s) := by
  -- the lease is in the table, under the key of its entry
  have hpos := (h.ids held ((outstanding_sublist history).subset hheld)).2.1
  have hlookup : s.leases.lookup lease.id = some (keyFor held.origin) :=
    h.lookup_leases_iff.mpr ⟨held, hheld, hid, rfl⟩
  obtain ⟨entry, hentry⟩ := Option.isSome_iff_exists.mp (AList.lookup_isSome.mpr (h.present held hheld))
  have heq : release nowMs lease success s =
      { s with
        entries := s.entries.insert (keyFor held.origin) (entry.released nowMs success)
        leases := s.leases.erase lease.id } := by
    unfold release
    rw [if_neg (by rw [hvalid]; simp; omega), hlookup]
    dsimp only
    rw [hentry]
  rw [heq]
  have hout : outstanding (.released nowMs lease :: history) =
      (outstanding history).filter fun held => held.id != lease.id := if_pos hvalid
  have hcount : ∀ key, heldOn key (.released nowMs lease :: history) + _ = _ :=
    h.heldOn_released hvalid hheld hid
  exact
    { maxOrigins_pos := h.maxOrigins_pos
      size_le := by
        show (s.entries.insert _ _).entries.length ≤ _
        rw [UnorderedMap.length_insert_of_mem (h.present held hheld)]
        exact h.size_le
      nextLeaseId_pos := h.nextLeaseId_pos
      leases_eq := by
        show (s.leases.erase lease.id).entries = _
        rw [UnorderedMap.entries_erase, h.leases_eq, hout, List.filter_map]
        rfl
      -- no entry goes
      present := by
        intro held' hheld'
        rw [hout] at hheld'
        exact (AList.mem_insert _).mpr (.inr (h.present held' (List.mem_of_mem_filter hheld')))
      active := by
        intro key entry' hentry'
        have hkey := hcount key
        rcases UnorderedMap.lookup_insert_cases hentry' with ⟨rfl, rfl⟩ | ⟨hne, hentry'⟩
        · -- the entry counted the lease, so the guard against underflow holds
          have hactive := h.active _ entry hentry
          rw [if_pos rfl] at hkey
          show (if 0 < entry.activeLeases then entry.activeLeases - 1 else entry.activeLeases) = _
          rw [if_pos (by omega)]
          omega
        · rw [if_neg (Ne.symm hne)] at hkey
          rw [h.active key entry' hentry', ← hkey]
          rfl
      -- the last use of the entry is this release, unless the lease was another one
      used := by
        intro key entry' hentry'
        rcases UnorderedMap.lookup_insert_cases hentry' with ⟨rfl, rfl⟩ | ⟨hne, hentry'⟩
        · exact if_pos ⟨hvalid, held, hheld, hid, rfl⟩
        · refine (if_neg ?_).trans (h.used key entry' hentry')
          rintro ⟨-, held', hheld', hid', rfl⟩
          have hsame := h.eq_of_id_eq ((outstanding_sublist history).subset hheld')
            ((outstanding_sublist history).subset hheld) (hid'.trans hid.symm)
          rw [hsame] at hne
          exact hne rfl
      ids := h.ids
      ids_nodup := h.ids_nodup }

theorem Inv.released (h : Inv history s) (nowMs : ℤ) (lease : ConnectionLease) (success : Bool) :
    Inv (.released nowMs lease :: history) (release nowMs lease success s) := by
  by_cases hheld : lease.valid = true ∧ ∃ held ∈ outstanding history, held.id = lease.id
  · obtain ⟨hvalid, held, hmem, hid⟩ := hheld
    exact h.released_of_held hvalid hmem hid nowMs success
  · have hout : lease.valid = true → ∀ held ∈ outstanding history, held.id ≠ lease.id :=
      fun hvalid held hmem hid => hheld ⟨hvalid, held, hmem, hid⟩
    rw [h.release_eq_self hout]
    exact h.released_of_not_held hout

/-- What clears the pool clears the accounts. -/
theorem Inv.cleared (h : Inv history s) : Inv (.cleared :: history) (evictAll s) where
  maxOrigins_pos := h.maxOrigins_pos
  size_le := Nat.zero_le _
  nextLeaseId_pos := h.nextLeaseId_pos
  leases_eq := rfl
  present := fun held hheld => by cases hheld
  active := fun key entry hentry => by cases hentry
  used := fun key entry hentry => by cases hentry
  ids := h.ids
  ids_nodup := h.ids_nodup

theorem maxOrigins_evictOldest (order : List (Σ _ : Bytes, Entry)) (s : State) :
    (ConnectionPool.evictOldest order s).maxOrigins = s.maxOrigins := by
  unfold ConnectionPool.evictOldest
  split <;> rfl

/-- What an `acquire` comes to: no lease, or a lease from a pool with room for it. -/
theorem Inv.acquire_cases (h : Inv history s) (hperm : order.Perm s.entries.entries) (nowMs : ℤ)
    (origin : Origin) :
    (origin.host = [] ∧ acquire order nowMs origin s = (noLease, s)) ∨
      (IsFull (keyFor origin) s ∧ acquire order nowMs origin s = (noLease, s) ∧
        ∀ key entry, s.entries.lookup key = some entry → entry.activeLeases ≠ 0) ∨
      ∃ s', Inv history s' ∧ s'.maxOrigins = s.maxOrigins ∧
        (s'.entries.entries.length < s'.maxOrigins ∨ keyFor origin ∈ s'.entries) ∧
        acquire order nowMs origin s = lease nowMs origin s' ∧
        (s' = s ∨ IsFull (keyFor origin) s ∧ ∃ key entry, s.entries.lookup key = some entry ∧
          entry.activeLeases = 0 ∧ s'.entries = s.entries.erase key ∧
          ∀ key' entry', s.entries.lookup key' = some entry' → entry'.activeLeases = 0 →
            entry.lastUsedMs ≤ entry'.lastUsedMs) := by
  unfold acquire
  -- an origin without a host gets no lease
  by_cases hhost : origin.host = []
  · exact .inl ⟨hhost, if_pos (by simp [hhost])⟩
  rw [if_neg (by simpa using hhost)]
  by_cases hfull : IsFull (keyFor origin) s
  · rw [if_pos hfull]
    dsimp only
    rcases evictOldest_cases hperm with ⟨heq, hall⟩ | ⟨key, entry, hentry, hidle, heq, hleast⟩
    · -- nothing to evict
      rw [heq, if_pos hfull.1]
      exact .inr (.inl ⟨hfull, rfl, hall⟩)
    · -- the place of the evicted entry is free
      have hlength := UnorderedMap.length_erase_of_mem
        (AList.lookup_isSome.mp (Option.isSome_iff_exists.mpr ⟨entry, hentry⟩))
      have hsize := h.size_le
      have hroom : (ConnectionPool.evictOldest order s).entries.entries.length
          < (ConnectionPool.evictOldest order s).maxOrigins := by
        rw [heq]
        show (s.entries.erase key).entries.length < s.maxOrigins
        omega
      rw [if_neg (Nat.not_le.mpr hroom)]
      refine .inr (.inr ⟨_, h.evictOldest hperm, maxOrigins_evictOldest order s, .inl hroom, rfl, .inr ?_⟩)
      exact ⟨hfull, key, entry, hentry, hidle, by rw [heq], hleast⟩
  -- the pool has room, or the entry is there
  · rw [if_neg hfull]
    refine .inr (.inr ⟨s, h, rfl, ?_, rfl, .inl rfl⟩)
    by_cases hkey : keyFor origin ∈ s.entries
    · exact .inr hkey
    · exact .inl (Nat.lt_of_not_le fun hle => hfull ⟨hle, hkey⟩)

end

/-- **Every section keeps the accounts.** -/
theorem inv_step {m m' : Machine} {op : Op} (h : Inv m.history m.pool) (hstep : m.Step op m') :
    Inv m'.history m'.pool ∧ m'.pool.maxOrigins = m.pool.maxOrigins := by
  obtain ⟨horder, rfl⟩ := hstep
  cases op with
  | acquire order nowMs origin =>
    unfold Machine.apply
    dsimp only
    -- no host, no room, or a lease
    rcases h.acquire_cases (horder _ _ _ rfl) nowMs origin with
      ⟨-, heq⟩ | ⟨-, heq, -⟩ | ⟨s', h', hmax, hroom, heq, -⟩
    · rw [heq]
      exact ⟨h, rfl⟩
    · rw [heq]
      exact ⟨h, rfl⟩
    · rw [heq]
      exact ⟨h'.acquired nowMs hroom, hmax⟩
  | release nowMs lease success =>
    refine ⟨h.released nowMs lease success, ?_⟩
    show (release nowMs lease success m.pool).maxOrigins = m.pool.maxOrigins
    unfold release
    split_ifs
    · rfl
    · split <;> rfl
  | evictAll => exact ⟨h.cleared, rfl⟩
  | onNetworkChange networkEpoch => exact ⟨{ h.cleared with }, rfl⟩
  | beginPrefetch => exact ⟨{ h with }, rfl⟩
  | endPrefetch result => exact ⟨{ h with }, rfl⟩
  | beginMigrate => exact ⟨{ h with }, rfl⟩
  | endMigrate result => exact ⟨{ h with }, rfl⟩

theorem inv_of_run {maxOrigins : ℕ} {ops : List Op} {m : Machine}
    (h : Run Machine.Step { pool := new maxOrigins } ops m) :
    Inv m.history m.pool ∧ m.pool.maxOrigins = (new maxOrigins).maxOrigins :=
  h.invariant (I := fun m => Inv m.history m.pool ∧ m.pool.maxOrigins = (new maxOrigins).maxOrigins)
    (fun _ _ _ hI hstep => ⟨(inv_step hI.1 hstep).1, (inv_step hI.1 hstep).2.trans hI.2⟩)
    ⟨inv_new maxOrigins, rfl⟩

/-! ### The accounts -/

/-- The accounts of a pool and its leases. -/
structure Accounted (m : Machine) : Prop where
  size_le : m.pool.entries.entries.length ≤ m.pool.maxOrigins
  /-- An entry counts the outstanding leases of its key. -/
  active : ∀ key entry, m.pool.entries.lookup key = some entry →
    entry.activeLeases = (outstanding m.history).countP fun held => keyFor held.origin == key
  present : ∀ held ∈ outstanding m.history, keyFor held.origin ∈ m.pool.entries
  total : (snapshot m.pool).activeLeases = (outstanding m.history).length
  total_entries :
    (snapshot m.pool).activeLeases = (m.pool.entries.entries.map fun e => e.2.activeLeases).sum
  /-- No two leases ever had the same id. -/
  ids_nodup : ((handedOut m.history).map ConnectionLease.id).Nodup
  /-- A lease that was released, or held when the pool was cleared, is released in vain. -/
  ended : ∀ newer event older lease, m.history = newer ++ event :: older → lease ∈ handedOut older →
    event.Ends lease → ∀ nowMs success, release nowMs lease success m.pool = m.pool
  /-- So is one that was never handed out. -/
  forged : ∀ lease : ConnectionLease, (∀ held ∈ outstanding m.history, held.id ≠ lease.id) →
    ∀ nowMs success, release nowMs lease success m.pool = m.pool
  /-- `acquire` fails only where every place is taken by an origin with a lease. -/
  refused : ∀ order nowMs origin, order.Perm m.pool.entries.entries → origin.host ≠ [] →
    (acquire order nowMs origin m.pool).1.valid = false →
    m.pool.entries.entries.length = m.pool.maxOrigins ∧
      ∀ key ∈ m.pool.entries, ∃ held ∈ outstanding m.history, keyFor held.origin = key
  /-- An entry goes to make room only where it is idle and no idle one was used longer ago. -/
  evicted : ∀ order nowMs origin key, order.Perm m.pool.entries.entries → key ∈ m.pool.entries →
    key ∉ (acquire order nowMs origin m.pool).2.entries →
    m.pool.entries.entries.length = m.pool.maxOrigins ∧
      (∀ held ∈ outstanding m.history, keyFor held.origin ≠ key) ∧
      ∃ usedMs, lastUse key m.history = some usedMs ∧
        ∀ key' ∈ m.pool.entries, (∀ held ∈ outstanding m.history, keyFor held.origin ≠ key') →
          ∃ usedMs', lastUse key' m.history = some usedMs' ∧ usedMs ≤ usedMs'

section

variable {m : Machine}

/-- An idle entry is one without outstanding leases. -/
theorem Inv.idle_iff (h : Inv m.history m.pool) {key : Bytes} {entry : Entry}
    (hentry : m.pool.entries.lookup key = some entry) :
    entry.activeLeases = 0 ↔ ∀ held ∈ outstanding m.history, keyFor held.origin ≠ key := by
  have hpos : 0 < heldOn key m.history ↔ _ := heldOn_pos_iff
  rw [h.active key entry hentry]
  constructor
  · intro hzero held hheld heq
    have := hpos.mpr ⟨held, hheld, heq⟩
    omega
  · intro hall
    by_contra hne
    obtain ⟨held, hheld, heq⟩ := hpos.mp (Nat.pos_of_ne_zero hne)
    exact hall held hheld heq

theorem Inv.total_entries (h : Inv m.history m.pool) :
    (outstanding m.history).length = (m.pool.entries.entries.map fun e => e.2.activeLeases).sum := by
  have hsum := sum_countP_eq_length m.pool.entries.keys_nodup
    (fun held : ConnectionLease => keyFor held.origin) fun held hheld =>
      AList.mem_keys.mp (h.present held hheld)
  rw [← hsum]
  show ((m.pool.entries.entries.map Sigma.fst).map _).sum = _
  rw [List.map_map]
  refine congrArg List.sum (List.map_congr_left fun e he => ?_)
  exact (h.active e.1 e.2 (AList.mem_lookup_iff.mpr he)).symm

theorem Inv.accounted (h : Inv m.history m.pool) : Accounted m where
  size_le := h.size_le
  active := h.active
  present := h.present
  total := by
    show m.pool.leases.entries.length = _
    rw [h.leases_eq, List.length_map]
  total_entries := by
    rw [← h.total_entries]
    show m.pool.leases.entries.length = _
    rw [h.leases_eq, List.length_map]
  ids_nodup := h.ids_nodup
  ended := by
    intro newer event older lease heq hlease hends nowMs success
    have hnodup := h.ids_nodup
    -- a second release finds no lease with the id
    rw [heq] at hnodup
    have hnot := not_outstanding_of_ends hnodup hlease hends
    rw [← heq] at hnot
    exact h.release_eq_self (fun _ => hnot) nowMs success
  forged := fun lease hnot nowMs success => h.release_eq_self (fun _ => hnot) nowMs success
  refused := by
    intro order nowMs origin hperm hhost hvalid
    rcases h.acquire_cases hperm nowMs origin with ⟨hempty, -⟩ | ⟨hfull, -, hall⟩ | ⟨s', -, -, -, heq, -⟩
    · exact absurd hempty hhost
    -- every entry is in use
    · refine ⟨le_antisymm h.size_le hfull.1, fun key hkey => ?_⟩
      obtain ⟨entry, hentry⟩ := Option.isSome_iff_exists.mp (AList.lookup_isSome.mpr hkey)
      have hactive := hall key entry hentry
      rw [h.active key entry hentry] at hactive
      exact heldOn_pos_iff.mp (Nat.pos_of_ne_zero hactive)
    · rw [heq] at hvalid
      cases hvalid
  evicted := by
    intro order nowMs origin key hperm hkey hgone
    -- an entry goes only when the pool was full, and then it was idle
    rcases h.acquire_cases hperm nowMs origin with
      ⟨-, heq⟩ | ⟨-, heq, -⟩ |
        ⟨s', -, -, -, heq, rfl | ⟨hfull, key', entry, hentry, hidle, herase, hleast⟩⟩
    · rw [heq] at hgone
      exact absurd hkey hgone
    · rw [heq] at hgone
      exact absurd hkey hgone
    · rw [heq] at hgone
      exact absurd ((AList.mem_insert _).mpr (.inr hkey)) hgone
    · -- only the entry that was erased is gone
      rw [heq] at hgone
      obtain rfl : key = key' := by
        by_contra hne
        refine hgone ((AList.mem_insert _).mpr (.inr ?_))
        rw [herase]
        exact AList.mem_erase.mpr ⟨hne, hkey⟩
      refine ⟨le_antisymm h.size_le hfull.1, (h.idle_iff hentry).mp hidle, entry.lastUsedMs,
        h.used key entry hentry, fun key' hkey' hidle' => ?_⟩
      obtain ⟨entry', hentry'⟩ := Option.isSome_iff_exists.mp (AList.lookup_isSome.mpr hkey')
      exact ⟨entry'.lastUsedMs, h.used key' entry' hentry',
        hleast key' entry' hentry' ((h.idle_iff hentry').mpr hidle')⟩

end

/-- **The accounts of the connection pool agree after every run.** -/
theorem accounted_of_run {maxOrigins : ℕ} {ops : List Op} {m : Machine}
    (h : Run Machine.Step { pool := new maxOrigins } ops m) :
    m.pool.maxOrigins = (if maxOrigins = 0 then 1 else maxOrigins) ∧ Function.Injective keyFor ∧
      Accounted m :=
  ⟨(inv_of_run h).2, keyFor_injective, (inv_of_run h).1.accounted⟩

/-- The entries may be met in the order in which they are listed. -/
theorem step_acquire (m : Machine) (nowMs : ℤ) (origin : Origin) :
    m.Step (.acquire m.pool.entries.entries nowMs origin)
      (m.apply (.acquire m.pool.entries.entries nowMs origin)) := by
  refine ⟨fun order nowMs' origin' heq => ?_, rfl⟩
  cases heq
  exact List.Perm.refl _

theorem step_release (m : Machine) (nowMs : ℤ) (lease : ConnectionLease) (success : Bool) :
    m.Step (.release nowMs lease success) (m.apply (.release nowMs lease success)) :=
  ⟨fun order nowMs' origin' heq => (by cases heq), rfl⟩

/-- A pool for one origin: its lease is released, and another origin takes its place. -/
theorem accounted_of_run_evicting : ∃ ops m,
    Run Machine.Step { pool := new 1 } ops m ∧ m.pool.evictions = 1 ∧ Accounted m :=
  have hrun := ((Run.nil.snoc (step_acquire { pool := new 1 } 10 { host := ascii "a" })).snoc
    (step_release _ 20 { origin := { host := ascii "a" }, id := 1, valid := true } true)).snoc
    (step_acquire _ 30 { host := ascii "b" })
  ⟨_, _, hrun, by decide +kernel, (accounted_of_run hrun).2.2⟩

end ConnectionPool

end AsterNet
