import AsterNet.Lib.Program

/-!
# Programs that carry a ghost

`Tracks forget pre f g post` compares a program over states with a ghost in them to the one without:
from states satisfying `pre` both return the same value and come to the same state but for the ghost,
and the value and the state `f` leaves satisfy `post`.  So what `post` says of the ghost is said of the
run of `g`.  The rules follow the shape of the program.
-/

namespace Effect

namespace Program

variable {ε σ τ α β : Type} {forget : τ → σ} {pre : τ → Prop} {post : α → τ → Prop}

/-- `f` is `g` with a ghost that satisfies `post` when it did `pre`. -/
def Tracks (forget : τ → σ) (pre : τ → Prop) (f : Program ε τ α) (g : Program ε σ α)
    (post : α → τ → Prop) : Prop :=
  ∀ t, pre t → (f t).val = (g (forget t)).val ∧ forget (f t).post = (g (forget t)).post ∧
    post (f t).val (f t).post

theorem tracks_pure {a : α} (h : ∀ t, pre t → post a t) :
    Tracks forget pre (pure a : Program ε τ α) (pure a) post :=
  fun t ht => ⟨rfl, rfl, h t ht⟩

theorem tracks_emit {e : ε} {post : Unit → τ → Prop} (h : ∀ t, pre t → post () t) :
    Tracks forget pre (emit e : Program ε τ Unit) (emit e) post :=
  fun t ht => ⟨rfl, rfl, h t ht⟩

theorem tracks_call {f : τ → α × τ} {g : σ → α × σ}
    (h : ∀ t, pre t → (f t).1 = (g (forget t)).1 ∧ forget (f t).2 = (g (forget t)).2 ∧
      post (f t).1 (f t).2) :
    Tracks forget pre (call f : Program ε τ α) (call g) post :=
  h

theorem tracks_bind {f : Program ε τ α} {g : Program ε σ α} {f' : α → Program ε τ β}
    {g' : α → Program ε σ β} {post' : β → τ → Prop} (hf : Tracks forget pre f g post)
    (hf' : ∀ a, Tracks forget (post a) (f' a) (g' a) post') :
    Tracks forget pre (f >>= f') (g >>= g') post' := by
  intro t ht
  obtain ⟨hval, hpost, hmid⟩ := hf t ht
  obtain ⟨hval', hpost', hend⟩ := hf' (f t).val (f t).post hmid
  rw [hpost, hval] at hval' hpost'
  rw [bind_apply, bind_apply, ← hval]
  rw [← hval] at hval' hpost'
  exact ⟨hval', hpost', hend⟩

theorem tracks_ite {c : Prop} [Decidable c] {f f' : Program ε τ α} {g g' : Program ε σ α}
    (h : c → Tracks forget pre f g post) (h' : ¬ c → Tracks forget pre f' g' post) :
    Tracks forget pre (if c then f else f') (if c then g else g') post := by
  split_ifs with hc
  · exact h hc
  · exact h' hc

theorem Tracks.conseq {f : Program ε τ α} {g : Program ε σ α} {pre' : τ → Prop}
    {post' : α → τ → Prop} (h : Tracks forget pre f g post) (hpre : ∀ t, pre' t → pre t)
    (hpost : ∀ a t, post a t → post' a t) : Tracks forget pre' f g post' := by
  intro t ht
  obtain ⟨hval, hstate, hend⟩ := h t (hpre t ht)
  exact ⟨hval, hstate, hpost _ _ hend⟩

end Program

end Effect
