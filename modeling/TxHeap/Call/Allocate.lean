/-
  TxHeap.Call.Allocate — room for new objects.

  The main thread allocates in the shared heap, a worker in its nursery. `bump` takes raw
  bytes, also in a transaction that is no longer active; `create` makes an object of a known
  type, with a zero payload, and needs an active transaction.
-/
import TxHeap.Session

namespace TxHeap.Action

open Step

def bump (thread size : Nat) : Action Nat := do
  let _ ← handle thread
  if thread = mainThread then
    let (addr, shared) ← ofAttempt ((← get).heap.shared.allocate size)
    setShared shared
    return addr
  else
    let tx ← openTx thread "allocate_bump_pointer"
    let (addr, nursery) ← ofAttempt (tx.nursery.allocate size)
    setTx thread (some { tx with nursery })
    return addr

def placeObject (thread typeId size : Nat) : Action Nat := do
  if thread = mainThread then
    let (obj, shared) ← ofAttempt ((← get).heap.shared.place size (.new typeId Flag.global))
    setShared shared
    return obj
  else
    let tx ← openTx thread "malloc"
    ofAttempt (tx.requirePhase "malloc" .active)
    let (obj, nursery) ← ofAttempt (tx.nursery.place size (.new typeId 0))
    setTx thread (some { tx with nursery })
    return obj

def create (thread typeId : Nat) : Action Nat := do
  let _ ← handle thread
  let size ← ofAttempt ((← get).heap.layout.objectSize typeId)
  let obj ← placeObject thread typeId size
  note (.allocated thread typeId size obj)
  return obj

end TxHeap.Action
