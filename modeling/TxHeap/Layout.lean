/-
  TxHeap.Layout — what the heap knows about the types of its objects.

  The heap never reads a payload on its own account: a layout tells it the payload size of
  each type, where its strong pointers are and where its weak field is, if it has one.
  `objectSize` adds the header and rounds up to whole words.
-/
import TxHeap.Failure

namespace TxHeap

structure Layout where
  /-- Payload bytes; none for an unknown type. -/
  payload? : Nat → Option Nat
  /-- Payload offsets of the strong pointers, in the order in which they are visited. -/
  pointers : Nat → List Nat
  /-- Payload offset of the weak field. -/
  weak? : Nat → Option Nat

/-- Bytes that an object of the type takes, header included. -/
def Layout.objectSize (layout : Layout) (typeId : Nat) : Attempt Nat :=
  match layout.payload? typeId with
  | some payload => Attempt.arith do Word.roundUp (← Word.add headerSize payload)
  | none => Attempt.refuse (.unknownType typeId)

/-- The address of a payload offset; that a word fits there is for the access to check. -/
def payloadAddress (obj offset : Nat) : Attempt Nat := do
  let inner ← Attempt.arith (Word.add headerSize offset)
  let reach ← Attempt.arith (Word.add inner wordSize)
  Attempt.ofOption (.invalidAccess obj reach) (Word.add? obj inner)

/-- An object has at least its header. -/
theorem Layout.headerSize_le_objectSize {layout : Layout} {typeId size : Nat}
    (h : layout.objectSize typeId = .ok size) : headerSize ≤ size := by
  unfold objectSize at h
  split at h
  · rename_i payload _
    rw [Attempt.arith_eq_ok] at h
    cases hsum : Word.add headerSize payload with
    | error kind => simp [hsum, bind, Except.bind] at h
    | ok sum =>
      simp only [hsum, bind, Except.bind] at h
      have := Word.add_eq_ok.1 hsum
      have := Word.le_of_alignUp (by decide) h
      omega
  · simp at h

end TxHeap
