/-
  TxHeap.Registry — a table of types, numbered in the order of registration.

  `register` admits a type only if every pointer slot lies inside the payload and the weak
  field, if there is one, is an aligned word inside it that is not a strong pointer. So the
  layout of a registry (`Registry.layout`) never points outside an object.
-/
import TxHeap.Layout

namespace TxHeap

structure TypeRecord where
  name : String
  payload : Nat
  pointers : PointerMap
  weak : Option Nat
  deriving DecidableEq, Repr

def TypeRecord.checkWeak (t : TypeRecord) (weak : Nat) : Except SetupError Unit := do
  require (weak % wordSize = 0 ∧ weak + wordSize ≤ t.payload) (.weakOutsidePayload t.name weak)
  require (!t.pointers.contains weak) (.weakIsStrong t.name weak)

def TypeRecord.check (t : TypeRecord) : Except SetupError Unit := do
  require (t.pointers.extent ≤ t.payload) (.pointersPastPayload t.name t.payload)
  t.weak.forM t.checkWeak

structure Registry where
  types : Array TypeRecord
  deriving Repr

namespace Registry

def empty : Registry := ⟨#[]⟩

def size (r : Registry) : Nat := r.types.size

def get? (r : Registry) (typeId : Nat) : Option TypeRecord := r.types[typeId]?

/-- The id of the new type and the table with it. -/
def register (r : Registry) (t : TypeRecord) : Except SetupError (Nat × Registry) := do
  t.check
  require (r.size < idLimit) .typeTableFull
  return (r.size, ⟨r.types.push t⟩)

def layout (r : Registry) : Layout where
  payload? typeId := (r.get? typeId).map (·.payload)
  pointers typeId := ((r.get? typeId).map (·.pointers.offsets)).getD []
  weak? typeId := (r.get? typeId).bind (·.weak)

end Registry

end TxHeap
