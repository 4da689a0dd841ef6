/-
  TxHeap.PointerMap — which words of a payload hold strong pointers.

  A pointer map is a set of word-aligned payload offsets below `trackedSize`, kept as a bit
  for each slot. `next?` takes the lowest offset out of it; `walk` shows how many offsets
  were left before each step of taking them all out. `offsets` is the whole set in
  ascending order.
-/
import TxHeap.Word
import TxHeap.Text.Record

namespace TxHeap

structure PointerMap where
  slots : Nat
  deriving DecidableEq, Repr

inductive OffsetError where
  | unaligned (offset : Nat)
  | tooLarge (offset : Nat)
  deriving DecidableEq, Repr

namespace PointerMap

def slotCount : Nat := 64

def trackedSize : Nat := slotCount * wordSize

def empty : PointerMap := ⟨0⟩

def insert (m : PointerMap) (offset : Nat) : Except OffsetError PointerMap :=
  if offset % wordSize ≠ 0 then .error (.unaligned offset)
  else if slotCount ≤ offset / wordSize then .error (.tooLarge offset)
  else .ok ⟨m.slots ||| 1 <<< (offset / wordSize)⟩

/-- The set of the given offsets; repetitions fold, and the first bad offset is refused. -/
def ofList (offsets : List Nat) : Except OffsetError PointerMap := offsets.foldlM insert empty

def contains (m : PointerMap) (offset : Nat) : Bool :=
  offset % wordSize == 0 && decide (offset / wordSize < slotCount) && m.slots.testBit (offset / wordSize)

def isEmpty (m : PointerMap) : Bool := m.slots == 0

def count (m : PointerMap) : Nat := (List.range slotCount).countP m.slots.testBit

/-- One past the last byte of the last slot in the set. -/
def extent (m : PointerMap) : Nat := if m.slots = 0 then 0 else (m.slots.log2 + 1) * wordSize

def offsets (m : PointerMap) : List Nat :=
  ((List.range slotCount).filter m.slots.testBit).map (· * wordSize)

def lowestSlot (m : PointerMap) : Nat := ((List.range slotCount).find? m.slots.testBit).getD 0

def dropLowest (m : PointerMap) : PointerMap := ⟨m.slots &&& (m.slots - 1)⟩

def next? (m : PointerMap) : Option (Nat × PointerMap) :=
  if m.slots = 0 then none else some (m.lowestSlot * wordSize, m.dropLowest)

theorem slots_dropLowest_lt {m : PointerMap} (h : m.slots ≠ 0) : m.dropLowest.slots < m.slots :=
  Nat.lt_of_le_of_lt Nat.and_le_right (by omega)

/-- Taking offsets out until none is left: how many were left before, and what was taken. -/
def walk (m : PointerMap) : List (Nat × Option Nat) :=
  if m.slots = 0 then [(m.count, none)]
  else (m.count, some (m.lowestSlot * wordSize)) :: m.dropLowest.walk
termination_by m.slots
decreasing_by exact slots_dropLowest_lt ‹_›

def describe (m : PointerMap) : String := Text.record "ReferenceMap" [("bitmap", toString m.slots)]

end PointerMap

end TxHeap
