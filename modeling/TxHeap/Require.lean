/-
  TxHeap.Require — a condition that must hold, and what is answered where it does not.
-/

namespace TxHeap

def require {ε : Type} (condition : Prop) [Decidable condition] (e : ε) : Except ε Unit :=
  if condition then .ok () else .error e

theorem require_eq_ok {ε : Type} {condition : Prop} [Decidable condition] {e : ε} {u : Unit} :
    require condition e = .ok u ↔ condition := by
  unfold require
  split <;> simp [*]

theorem require_eq_error {ε : Type} {condition : Prop} [Decidable condition] {e e' : ε} :
    require condition e = .error e' ↔ ¬ condition ∧ e' = e := by
  unfold require
  split <;> simp [*, eq_comm]

end TxHeap
