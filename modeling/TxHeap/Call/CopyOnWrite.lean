/-
  TxHeap.Call.CopyOnWrite — the one working copy of a shared object in a transaction.

  The first call for a shared object copies it into the nursery, with a version slot that
  names it, and marks the shared object as copied; later calls return the same copy. The
  main thread and private objects need no copy.

  Room for the copy is taken before the shared bytes are read: where they turn out not to
  lie inside the shared heap, the room stays taken.
-/
import TxHeap.Call.Access

namespace TxHeap.Action

open Step

def copyHeader (typeId shared : Nat) : Header := (Header.new typeId 0).setVersion (.copyOf shared)

def makeCopy (thread obj : Nat) (tx : Transaction) : Action Nat := do
  let heap := (← get).heap
  let header ← ofAttempt (heap.shared.header obj)
  demand header.isGlobal (.violation (.notGlobal obj))
  let size ← ofAttempt (heap.layout.objectSize header.typeId)
  let (copy, nursery) ← ofAttempt (tx.nursery.allocate size)
  setTx thread (some { tx with nursery })
  let nursery ← ofAttempt (nursery.write copy (← ofAttempt (heap.shared.read obj size)))
  let nursery ← ofAttempt (nursery.setHeader copy (copyHeader header.typeId obj))
  let objects ← ofAttempt (tx.objects.insert obj copy)
  setTx thread (some { tx with nursery, objects })
  setShared (← ofAttempt (heap.shared.setHeader obj header.markCopied))
  count .recordCopy
  note (.copied thread obj copy)
  return copy

/-- The address through which the thread may store to the object. -/
def copyOnWrite (thread obj : Nat) : Action Nat := do
  let h ← handle thread
  if thread = mainThread then return obj
  else
    match ← ofAttempt (h.locate (← get).heap obj) with
    | .nursery => return obj
    | .shared =>
      let tx ← openTx thread "materialize"
      ofAttempt (tx.requirePhase "materialize" .active)
      match tx.objects.copyOf? obj with
      | some copy => return copy
      | none => makeCopy thread obj tx

end TxHeap.Action
