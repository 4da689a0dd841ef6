/-
  TxHeap.Call.Boundary — attaching, detaching, and the start and abort of transactions.

  Only workers run transactions, one at a time. A transaction can be aborted until its
  roots are written; detaching counts as an abort up to the same point.
-/
import TxHeap.Session

namespace TxHeap.Action

open Step

def attachMain : Action Nat := do
  let threads ← ofAttempt (← get).heap.threads.attachMain
  modify fun s => { s with heap := { s.heap with threads }, handles := s.handles ++ [⟨mainThread, none⟩] }
  note .mainAttached
  return mainThread

def attachWorker : Action Nat := do
  let heap := (← get).heap
  let (thread, threads) ← ofAttempt (heap.threads.attachWorker heap.config.maxWorkers)
  modify fun s => { s with heap := { s.heap with threads }, handles := s.handles ++ [⟨thread, none⟩] }
  note (.workerAttached thread)
  return thread

def countAbort (thread : Nat) (tx : Transaction) : Action Unit := do
  count .recordAbort
  emit (.aborted thread tx.objects.size)

def dropOpen (thread : Nat) (tx : Transaction) : Action Unit := do
  if tx.phase = .applied then pure () else countAbort thread tx
  note (.detachedOpen thread tx.phase)

def detach (thread : Nat) : Action Unit := do
  let h ← handle thread
  h.tx.forM (dropOpen thread)
  modify fun s =>
    { s with
      heap := { s.heap with threads := s.heap.threads.detach thread }
      handles := s.handles.filter (·.thread != thread) }
  note (.detached thread)

def start (thread : Nat) : Action Unit := do
  let h ← handle thread
  demand (thread ≠ mainThread) (.violation .mainTransaction)
  demand (h.tx.isNone) (.alreadyActive thread)
  let nursery ← ofAttempt ((← get).heap.newNursery thread)
  setTx thread (some (.fresh nursery))
  count .recordStart
  emit (.started thread)
  note (.started thread)

def abort (thread : Nat) : Action Unit := do
  let tx ← openTx thread "abort"
  demand (tx.phase ≠ .applied) (.violation .rootsAlreadyApplied)
  setTx thread none
  countAbort thread tx
  note (.aborted thread tx.objects.size)

end TxHeap.Action
