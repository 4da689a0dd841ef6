/-
  TxHeap.Ends — how a step ends.

  `Ends x s ok bad` says of the step `x` from the state `s`: if it answers, the answer and
  the state are as `ok` says, and if it fails, the failure and the state are as `bad` says.
  There is one rule for each way to build a step, so that a step is followed from its start
  to its ends without looking at how states are passed on.
-/
import TxHeap.Step

namespace TxHeap.Step

variable {σ α β : Type} {s : σ} {ok ok' : α → σ → Prop} {bad bad' : Failure → σ → Prop}

def Ends (x : Step σ α) (s : σ) (ok : α → σ → Prop) (bad : Failure → σ → Prop) : Prop :=
  match x s with
  | .ok a t => ok a t
  | .error f t => bad f t

theorem Ends.of_ok {x : Step σ α} {a : α} {t : σ} (h : Ends x s ok bad) (hx : x s = .ok a t) : ok a t := by
  unfold Ends at h
  rwa [hx] at h

theorem Ends.of_error {x : Step σ α} {f : Failure} {t : σ} (h : Ends x s ok bad) (hx : x s = .error f t) :
    bad f t := by
  unfold Ends at h
  rwa [hx] at h

theorem ends_of_ok {x : Step σ α} {a : α} {t : σ} (hx : x s = .ok a t) (h : ok a t) : Ends x s ok bad := by
  unfold Ends
  rw [hx]
  exact h

/-- An end may be said less of. -/
theorem Ends.mono {x : Step σ α} (h : Ends x s ok bad) (hok : ∀ a t, ok a t → ok' a t)
    (hbad : ∀ f t, bad f t → bad' f t) : Ends x s ok' bad' := by
  unfold Ends at h ⊢
  split
  · rename_i hx
    rw [hx] at h
    exact hok _ _ h
  · rename_i hx
    rw [hx] at h
    exact hbad _ _ h

/-- The state that a step leaves, however it ends. -/
def left (x : Step σ α) (s : σ) : σ :=
  match x s with
  | .ok _ t => t
  | .error _ t => t

theorem left_of_ok {x : Step σ α} {a : α} {t : σ} (h : x s = .ok a t) : x.left s = t := by rw [left, h]

theorem left_of_error {x : Step σ α} {f : Failure} {t : σ} (h : x s = .error f t) : x.left s = t := by rw [left, h]

theorem Ends.left {x : Step σ α} {P : σ → Prop} (h : Ends x s (fun _ t => P t) fun _ t => P t) : P (x.left s) := by
  unfold Ends at h
  unfold Step.left
  split at h <;> exact h

/-- What is said of the ends in two ways holds in both. -/
theorem Ends.and {x : Step σ α} (h : Ends x s ok bad) (h' : Ends x s ok' bad') :
    Ends x s (fun a t => ok a t ∧ ok' a t) fun f t => bad f t ∧ bad' f t := by
  unfold Ends at h h' ⊢
  split <;> rename_i hx <;> rw [hx] at h h' <;> exact ⟨h, h'⟩

theorem ends_bind {x : Step σ β} {f : β → Step σ α} :
    Ends (x >>= f) s ok bad ↔ Ends x s (fun b t => Ends (f b) t ok bad) bad := by
  simp only [Ends, bind_apply]
  cases x s <;> exact Iff.rfl

theorem ends_map {x : Step σ β} {f : β → α} : Ends (f <$> x) s ok bad ↔ Ends x s (fun b t => ok (f b) t) bad := by
  simp only [Ends, map_apply]
  cases x s <;> exact Iff.rfl

theorem ends_pure {a : α} : Ends (pure a : Step σ α) s ok bad ↔ ok a s := Iff.rfl

theorem ends_get {ok : σ → σ → Prop} : Ends (get : Step σ σ) s ok bad ↔ ok s s := Iff.rfl

theorem ends_set {t : σ} {ok : PUnit → σ → Prop} : Ends (set t : Step σ PUnit) s ok bad ↔ ok () t := Iff.rfl

theorem ends_modify {f : σ → σ} {ok : Unit → σ → Prop} :
    Ends (modify f : Step σ Unit) s ok bad ↔ ok () (f s) := Iff.rfl

theorem ends_violate {v : Violation} :
    Ends (violate v : Step σ α) s ok bad ↔ bad (.refused (.violation v)) s := Iff.rfl

theorem ends_ofAttempt {x : Attempt α} :
    Ends (ofAttempt x : Step σ α) s ok bad ↔ (∀ a, x = .ok a → ok a s) ∧ ∀ f, x = .error f → bad f s := by
  cases x with
  | ok a => exact ⟨fun h => ⟨fun _ e => by cases e; exact h, nofun⟩, fun h => h.1 a rfl⟩
  | error f => exact ⟨fun h => ⟨nofun, fun _ e => by cases e; exact h⟩, fun h => h.2 f rfl⟩

/-- An attempt that is known to succeed. -/
theorem ends_ofAttempt_ok {x : Attempt α} {a : α} (hx : x = .ok a) (h : ok a s) :
    Ends (ofAttempt x : Step σ α) s ok bad := by
  subst hx
  exact h

theorem ends_demand {condition : Prop} [Decidable condition] {cause : Refusal} {ok : Unit → σ → Prop} :
    Ends (demand condition cause) s ok bad ↔
      (condition → ok () s) ∧ (¬ condition → bad (.refused cause) s) := by
  rw [demand, ends_ofAttempt, Attempt.demand]
  constructor
  · intro found
    obtain ⟨h, h'⟩ := found
    exact ⟨fun hc => h () (require_eq_ok.2 hc), fun hc => h' _ (require_eq_error.2 ⟨hc, rfl⟩)⟩
  · intro found
    obtain ⟨h, h'⟩ := found
    refine ⟨fun _ hx => h (require_eq_ok.1 hx), ?_⟩
    intro f hx
    obtain ⟨hc, rfl⟩ := require_eq_error.1 hx
    exact h' hc

/-- What each round of a loop keeps, the loop keeps; `inv` may speak of the rounds left. -/
theorem ends_forM {f : β → Step σ Unit} (inv : List β → σ → Prop)
    (round : ∀ b rest s, inv (b :: rest) s → Ends (f b) s (fun _ t => inv rest t) bad) :
    ∀ (bs : List β) (s : σ), inv bs s → Ends (bs.forM f) s (fun _ t => inv [] t) bad := by
  intro bs
  induction bs with
  | nil => intro s h; exact h
  | cons b bs ih =>
    intro s h
    show Ends (f b >>= fun _ => bs.forM f) s _ _
    rw [ends_bind]
    exact (round b bs s h).mono (fun _ t ht => ih t ht) fun _ _ hf => hf

end TxHeap.Step
