/-
  TxHeap.Step — steps over a state that may fail partway.

  A step ends with an answer or a failure, and in both cases with the state as it is then: a
  failed step is not rolled back. The lemmas say how steps run.
-/
import TxHeap.Failure

namespace TxHeap

abbrev Step (σ : Type) := EStateM Failure σ

namespace Step

variable {σ α β : Type}

def ofAttempt : Attempt α → Step σ α
  | .ok a => pure a
  | .error f => throw f

def refuse (cause : Refusal) : Step σ α := throw (.refused cause)

def violate (v : Violation) : Step σ α := refuse (.violation v)

def demand (condition : Prop) [Decidable condition] (cause : Refusal) : Step σ Unit :=
  ofAttempt (Attempt.demand condition cause)

section

variable (s : σ)

@[simp] theorem bind_apply (x : Step σ α) (f : α → Step σ β) :
    (x >>= f) s = match x s with
      | .ok a t => f a t
      | .error e t => .error e t := by
  simp only [bind, EStateM.bind]
  cases x s <;> rfl

@[simp] theorem map_apply (f : α → β) (x : Step σ α) :
    (f <$> x) s = match x s with
      | .ok a t => .ok (f a) t
      | .error e t => .error e t := by
  simp only [Functor.map, EStateM.map]
  cases x s <;> rfl

@[simp] theorem pure_apply (a : α) : (pure a : Step σ α) s = .ok a s := rfl

@[simp] theorem throw_apply (f : Failure) : (throw f : Step σ α) s = .error f s := rfl

@[simp] theorem ofAttempt_ok (a : α) : (ofAttempt (.ok a) : Step σ α) = pure a := rfl

@[simp] theorem ofAttempt_error (f : Failure) : (ofAttempt (.error f) : Step σ α) = throw f := rfl

@[simp] theorem get_apply : (get : Step σ σ) s = .ok s s := rfl

@[simp] theorem modify_apply (f : σ → σ) : (modify f : Step σ Unit) s = .ok () (f s) := rfl

end

end Step

end TxHeap
