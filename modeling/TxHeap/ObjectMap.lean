/-
  TxHeap.ObjectMap — the working copies of a transaction, in the order they were made.
-/
import TxHeap.Failure

namespace TxHeap

structure ObjectMap where
  /-- Shared object and working copy. -/
  pairs : List (Nat × Nat)
  deriving DecidableEq, Repr

namespace ObjectMap

def empty : ObjectMap := ⟨[]⟩

def size (m : ObjectMap) : Nat := m.pairs.length

def copyOf? (m : ObjectMap) (shared : Nat) : Option Nat := m.pairs.lookup shared

def sharedOf? (m : ObjectMap) (copy : Nat) : Option Nat :=
  (m.pairs.find? fun pair => pair.2 == copy).map (·.1)

/-- Each shared object is mapped at most once. -/
def insert (m : ObjectMap) (shared copy : Nat) : Attempt ObjectMap :=
  match m.copyOf? shared with
  | some existing => Attempt.refuse (.duplicateCopy shared existing)
  | none => .ok ⟨m.pairs ++ [(shared, copy)]⟩

end ObjectMap

end TxHeap
