/-
  TxHeap.Threads — who is attached to a heap.

  Thread 0 is the main thread. Workers are numbered from 1: a new worker gets the number
  that was freed last, or else the least number that was never given out.
-/
import TxHeap.Failure

namespace TxHeap

def mainThread : Nat := 0

structure Threads where
  mainAttached : Bool
  /-- The least worker number that was never given out. -/
  nextWorker : Nat
  /-- Worker numbers given back, the latest first. -/
  free : List Nat
  liveWorkers : Nat
  deriving DecidableEq, Repr

namespace Threads

def none : Threads := ⟨false, 1, [], 0⟩

def attachMain (t : Threads) : Attempt Threads :=
  if t.mainAttached then Attempt.violate .mainAlreadyAttached
  else .ok { t with mainAttached := true }

def attachWorker (t : Threads) (maxWorkers : Nat) : Attempt (Nat × Threads) :=
  match t.free with
  | worker :: free => .ok (worker, { t with free, liveWorkers := t.liveWorkers + 1 })
  | [] =>
    if maxWorkers < t.nextWorker then Attempt.violate (.tooManyWorkers maxWorkers)
    else if idLimit ≤ t.nextWorker + 1 then .error (.overflow .add)
    else .ok (t.nextWorker, { t with nextWorker := t.nextWorker + 1, liveWorkers := t.liveWorkers + 1 })

def detach (t : Threads) (thread : Nat) : Threads :=
  if thread = mainThread then { t with mainAttached := false }
  else { t with liveWorkers := t.liveWorkers - 1, free := thread :: t.free }

end Threads

end TxHeap
