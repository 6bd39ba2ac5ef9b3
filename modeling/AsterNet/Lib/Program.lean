import Mathlib.Tactic.Common

/-!
# Programs that emit events, and monitors for them

A `Program ε σ α` maps a state to a value, a state and the list of events it emits on the way.  The
state stands for everything outside the program: an external call is a function of it
(`Program.call`), so a statement about every state and every such function is one about every
behaviour of the outside.

`Program.Emits P` says that every event a program emits satisfies `P`.  `Program.Keeps J P f Q` says the
same of a program that runs from states satisfying `J`, and that it leaves such a state and returns a
value satisfying `Q`; an external call has to keep `J` where the program makes it.

A `Monitor` folds the events seen so far into a ghost value and says which event may come next.
`Monitor.Triple pre f post` is the Hoare triple over these ghost values; its rules (`triple_pure`,
`triple_bind`, `triple_emit`, `triple_call`, `triple_ite`) follow the shape of the program.
-/

namespace Effect

/-- What a run leaves behind. -/
structure Outcome (ε σ α : Type) where
  val : α
  post : σ
  events : List ε

/-- The outcome of a run that goes on after earlier events. -/
def Outcome.after {ε σ α : Type} (o : Outcome ε σ α) (es : List ε) : Outcome ε σ α :=
  { o with events := es ++ o.events }

@[simp] theorem Outcome.after_val {ε σ α : Type} (o : Outcome ε σ α) (es : List ε) :
    (o.after es).val = o.val := rfl

@[simp] theorem Outcome.after_post {ε σ α : Type} (o : Outcome ε σ α) (es : List ε) :
    (o.after es).post = o.post := rfl

@[simp] theorem Outcome.after_events {ε σ α : Type} (o : Outcome ε σ α) (es : List ε) :
    (o.after es).events = es ++ o.events := rfl

theorem Outcome.after_after {ε σ α : Type} (o : Outcome ε σ α) (es es' : List ε) :
    (o.after es).after es' = o.after (es' ++ es) := by
  rw [Outcome.after, Outcome.after, Outcome.after, List.append_assoc]

/-- A program over states `σ` that emits events `ε`. -/
def Program (ε σ α : Type) : Type := σ → Outcome ε σ α

namespace Program

variable {ε σ α β γ : Type}

instance : Monad (Program ε σ) where
  pure a := fun s => ⟨a, s, []⟩
  bind f g := fun s =>
    let r := f s
    let r' := g r.val r.post
    ⟨r'.val, r'.post, r.events ++ r'.events⟩

/-- Emit one event. -/
def emit (e : ε) : Program ε σ Unit := fun s => ⟨(), s, [e]⟩

/-- An external call: it reads and changes the state and emits nothing itself. -/
def call (f : σ → α × σ) : Program ε σ α := fun s => ⟨(f s).1, (f s).2, []⟩

@[simp] theorem pure_apply (a : α) (s : σ) :
    (pure a : Program ε σ α) s = ⟨a, s, []⟩ := rfl

@[simp] theorem bind_apply (f : Program ε σ α) (g : α → Program ε σ β) (s : σ) :
    (f >>= g) s = ⟨(g (f s).val (f s).post).val, (g (f s).val (f s).post).post,
      (f s).events ++ (g (f s).val (f s).post).events⟩ := rfl

/-- A bind as the run of its second part, after the events of the first. -/
theorem bind_apply_after (f : Program ε σ α) (g : α → Program ε σ β) (s : σ) :
    (f >>= g) s = (g (f s).val (f s).post).after (f s).events := rfl

theorem pure_after (a : α) (s : σ) (es : List ε) :
    ((pure a : Program ε σ α) s).after es = ⟨a, s, es⟩ := by
  rw [pure_apply, Outcome.after, List.append_nil]

@[simp] theorem emit_apply (e : ε) (s : σ) : emit e s = ⟨(), s, [e]⟩ := rfl

@[simp] theorem call_apply (f : σ → α × σ) (s : σ) :
    (call f : Program ε σ α) s = ⟨(f s).1, (f s).2, []⟩ := rfl

@[simp] theorem map_apply (f : α → β) (p : Program ε σ α) (s : σ) :
    (f <$> p) s = ⟨f (p s).val, (p s).post, (p s).events⟩ := by
  show (⟨_, _, (p s).events ++ []⟩ : Outcome ε σ β) = _
  rw [List.append_nil]
  rfl

theorem map_bind (h : β → γ) (f : Program ε σ α) (g : α → Program ε σ β) :
    h <$> (f >>= g) = f >>= fun a => h <$> g a := by
  funext s
  rw [map_apply, bind_apply, bind_apply, map_apply]

theorem bind_congr {f : Program ε σ α} {g g' : α → Program ε σ β} (h : ∀ a, g a = g' a) :
    f >>= g = f >>= g' := by
  rw [funext h]

@[simp] theorem ite_apply {c : Prop} [Decidable c] (f g : Program ε σ α) (s : σ) :
    (if c then f else g) s = if c then f s else g s := by
  split_ifs <;> rfl

/-! ### What a program may emit -/

/-- Every event the program emits satisfies `P`. -/
def Emits (P : ε → Prop) (f : Program ε σ α) : Prop := ∀ s, ∀ e ∈ (f s).events, P e

section

variable {P : ε → Prop} {f : Program ε σ α}

theorem emits_pure {a : α} : Emits P (pure a : Program ε σ α) := by
  intro s e he
  cases he

theorem emits_call {f : σ → α × σ} : Emits P (call f : Program ε σ α) := by
  intro s e he
  cases he

theorem emits_emit {e : ε} (h : P e) : Emits P (emit e : Program ε σ Unit) := by
  intro s e' he
  obtain rfl := List.mem_singleton.mp he
  exact h

theorem emits_bind {g : α → Program ε σ β} (hf : Emits P f) (hg : ∀ a, Emits P (g a)) :
    Emits P (f >>= g) := by
  intro s e he
  rcases List.mem_append.mp he with he | he
  · exact hf s e he
  · exact hg _ _ e he

theorem emits_ite {c : Prop} [Decidable c] {g : Program ε σ α} (hf : c → Emits P f)
    (hg : ¬ c → Emits P g) : Emits P (if c then f else g) := by
  split_ifs with h
  · exact hf h
  · exact hg h

end

/-! ### What a program keeps -/

/-- From a state satisfying `J` the program comes to one, with events satisfying `P` and a value
satisfying `Q`. -/
def Keeps (J : σ → Prop) (P : ε → Prop) (f : Program ε σ α) (Q : α → Prop) : Prop :=
  ∀ s, J s → J (f s).post ∧ (∀ e ∈ (f s).events, P e) ∧ Q (f s).val

section

variable {J : σ → Prop} {P : ε → Prop} {f : Program ε σ α} {Q : α → Prop} {R : β → Prop}

theorem keeps_pure {a : α} (h : Q a) : Keeps J P (pure a : Program ε σ α) Q :=
  fun _ hs => ⟨hs, by simp, h⟩

theorem keeps_emit {e : ε} (h : P e) : Keeps J P (emit e : Program ε σ Unit) fun _ => True :=
  fun _ hs => ⟨hs, by simpa using h, trivial⟩

theorem keeps_call {f : σ → α × σ} (h : ∀ s, J s → J (f s).2 ∧ Q (f s).1) :
    Keeps J P (call f : Program ε σ α) Q :=
  fun s hs => ⟨(h s hs).1, by simp, (h s hs).2⟩

theorem keeps_bind {g : α → Program ε σ β} (hf : Keeps J P f Q) (hg : ∀ a, Q a → Keeps J P (g a) R) :
    Keeps J P (f >>= g) R := by
  intro s hs
  obtain ⟨hmid, hevents, hval⟩ := hf s hs
  obtain ⟨hpost, hevents', hval'⟩ := hg _ hval _ hmid
  refine ⟨hpost, fun e he => ?_, hval'⟩
  rcases List.mem_append.mp he with he | he
  · exact hevents e he
  · exact hevents' e he

theorem keeps_ite {c : Prop} [Decidable c] {g : Program ε σ α} (hf : c → Keeps J P f Q)
    (hg : ¬ c → Keeps J P g Q) : Keeps J P (if c then f else g) Q := by
  split_ifs with h
  · exact hf h
  · exact hg h

end

/-- The program keeps `J₀` until it fixes a value `k`, and `J k` from then on; its events satisfy
`P k`. -/
def KeepsFrom {κ : Type} (J₀ : σ → Prop) (J : κ → σ → Prop) (P : κ → ε → Prop) (f : Program ε σ α) :
    Prop :=
  ∀ s, J₀ s → (J₀ (f s).post ∧ ∀ e ∈ (f s).events, ∀ k, P k e) ∨
    ∃ k, J k (f s).post ∧ ∀ e ∈ (f s).events, P k e

section

variable {κ : Type} {J₀ : σ → Prop} {J : κ → σ → Prop} {P : κ → ε → Prop} {Q : α → Prop}

theorem keepsFrom_pure {a : α} : KeepsFrom J₀ J P (pure a : Program ε σ α) :=
  fun _ hs => .inl ⟨hs, by simp⟩

/-- The part before the value is fixed. -/
theorem keepsFrom_bind {f : Program ε σ α} {g : α → Program ε σ β}
    (hf : Keeps J₀ (fun e => ∀ k, P k e) f Q) (hg : ∀ a, KeepsFrom J₀ J P (g a)) :
    KeepsFrom J₀ J P (f >>= g) := by
  intro s hs
  obtain ⟨hmid, hevents, -⟩ := hf s hs
  rcases hg (f s).val (f s).post hmid with ⟨hpost, hrest⟩ | ⟨k, hpost, hrest⟩
  · refine .inl ⟨hpost, fun e he => ?_⟩
    rcases List.mem_append.mp he with he | he
    · exact hevents e he
    · exact hrest e he
  · refine .inr ⟨k, hpost, fun e he => ?_⟩
    rcases List.mem_append.mp he with he | he
    · exact hevents e he k
    · exact hrest e he

theorem keepsFrom_ite {c : Prop} [Decidable c] {f g : Program ε σ α} (hf : KeepsFrom J₀ J P f)
    (hg : KeepsFrom J₀ J P g) : KeepsFrom J₀ J P (if c then f else g) := by
  split_ifs
  · exact hf
  · exact hg

/-- The call that fixes the value. -/
theorem keepsFrom_call {f : σ → κ × σ} {g : κ → Program ε σ β} (hf : ∀ s, J₀ s → J (f s).1 (f s).2)
    (hg : ∀ k, Keeps (J k) (P k) (g k) fun _ => True) : KeepsFrom J₀ J P (call f >>= g) := by
  intro s hs
  obtain ⟨hpost, hevents, -⟩ := hg (f s).1 (f s).2 (hf s hs)
  exact .inr ⟨(f s).1, hpost, fun e he => hevents e (by simpa using he)⟩

end

end Program

/-! ### Monitors -/

/-- A ghost value folded over the events, and what the next event must satisfy. -/
structure Monitor (ε κ : Type) where
  next : κ → ε → κ
  ok : κ → ε → Prop

namespace Monitor

variable {ε κ σ α β : Type} (M : Monitor ε κ)

/-- The ghost value after a list of events. -/
def run (k : κ) (es : List ε) : κ := es.foldl M.next k

/-- Every event of the list is allowed when it comes. -/
def Accepts : κ → List ε → Prop
  | _, [] => True
  | k, e :: es => M.ok k e ∧ Accepts (M.next k e) es

@[simp] theorem run_nil (k : κ) : M.run k [] = k := rfl

@[simp] theorem run_cons (k : κ) (e : ε) (es : List ε) :
    M.run k (e :: es) = M.run (M.next k e) es := rfl

@[simp] theorem run_append (k : κ) (es es' : List ε) :
    M.run k (es ++ es') = M.run (M.run k es) es' := List.foldl_append

@[simp] theorem accepts_nil (k : κ) : M.Accepts k [] := trivial

@[simp] theorem accepts_cons (k : κ) (e : ε) (es : List ε) :
    M.Accepts k (e :: es) ↔ M.ok k e ∧ M.Accepts (M.next k e) es := Iff.rfl

@[simp] theorem accepts_append (k : κ) (es es' : List ε) :
    M.Accepts k (es ++ es') ↔ M.Accepts k es ∧ M.Accepts (M.run k es) es' := by
  induction es generalizing k with
  | nil => simp
  | cons e es ih => simp [ih, and_assoc]

/-- Acceptance, event by event: each is allowed at the ghost value of the events before it. -/
theorem accepts_iff_forall_split {k : κ} {es : List ε} :
    M.Accepts k es ↔ ∀ before e after, es = before ++ e :: after → M.ok (M.run k before) e := by
  constructor
  · rintro h before e after rfl
    exact ((M.accepts_append k before (e :: after)).mp h).2.1
  · intro h
    induction es generalizing k with
    | nil => trivial
    | cons e es ih =>
      refine ⟨h [] e es rfl, ih ?_⟩
      intro before e' after hes
      exact h (e :: before) e' after (by rw [hes, List.cons_append])

/-- `{pre} f {post}`: from a ghost value satisfying `pre`, every event of `f` is allowed, and the
value it returns and the ghost value it leaves satisfy `post`. -/
def Triple (pre : κ → Prop) (f : Program ε σ α) (post : α → κ → Prop) : Prop :=
  ∀ s k, pre k → M.Accepts k (f s).events ∧ post (f s).val (M.run k (f s).events)

variable {M}

theorem triple_pure {pre : κ → Prop} {a : α} {post : α → κ → Prop} (h : ∀ k, pre k → post a k) :
    M.Triple pre (pure a : Program ε σ α) post :=
  fun _ k hk => ⟨trivial, h k hk⟩

theorem triple_bind {pre : κ → Prop} {f : Program ε σ α} {mid : α → κ → Prop}
    {g : α → Program ε σ β} {post : β → κ → Prop} (hf : M.Triple pre f mid)
    (hg : ∀ a, M.Triple (mid a) (g a) post) : M.Triple pre (f >>= g) post := by
  intro s k hk
  obtain ⟨hacc, hmid⟩ := hf s k hk
  obtain ⟨hacc', hpost⟩ := hg _ (f s).post _ hmid
  simp only [Program.bind_apply, accepts_append, run_append]
  exact ⟨⟨hacc, hacc'⟩, hpost⟩

theorem triple_emit {pre : κ → Prop} {e : ε} {post : Unit → κ → Prop}
    (h : ∀ k, pre k → M.ok k e ∧ post () (M.next k e)) :
    M.Triple pre (Program.emit e : Program ε σ Unit) post :=
  fun _ k hk => ⟨⟨(h k hk).1, trivial⟩, (h k hk).2⟩

/-- An external call emits nothing; `R` is what is known of its answers. -/
theorem triple_call {pre : κ → Prop} {f : σ → α × σ} {post : α → κ → Prop}
    (h : ∀ s k, pre k → post (f s).1 k) : M.Triple pre (Program.call f) post :=
  fun s k hk => ⟨trivial, h s k hk⟩

theorem triple_ite {c : Prop} [Decidable c] {pre : κ → Prop} {f g : Program ε σ α}
    {post : α → κ → Prop} (hf : c → M.Triple pre f post) (hg : ¬ c → M.Triple pre g post) :
    M.Triple pre (if c then f else g) post := by
  split_ifs with h
  · exact hf h
  · exact hg h

theorem Triple.conseq {pre pre' : κ → Prop} {f : Program ε σ α} {post post' : α → κ → Prop}
    (h : M.Triple pre f post) (hpre : ∀ k, pre' k → pre k)
    (hpost : ∀ a k, post a k → post' a k) : M.Triple pre' f post' :=
  fun s k hk => ⟨(h s k (hpre k hk)).1, hpost _ _ (h s k (hpre k hk)).2⟩

/-- A fact of the precondition that does not mention the ghost value is a hypothesis. -/
theorem triple_of_and {p : Prop} {pre : κ → Prop} {f : Program ε σ α} {post : α → κ → Prop}
    (h : p → M.Triple pre f post) : M.Triple (fun k => p ∧ pre k) f post :=
  fun s k hk => h hk.1 s k hk.2

end Monitor

end Effect
