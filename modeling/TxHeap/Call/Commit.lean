/-
  TxHeap.Call.Commit — the three steps that publish a transaction.

  Prepare replaces pointers and promotes, and leaves the shared roots alone. Apply overwrites
  the payload of each root with that of its working copy. Finish drops the nursery and
  reports. A refused step leaves the transaction failed, with what it has done so far.
-/
import TxHeap.Commit.Worklist
import TxHeap.Session

namespace TxHeap

def Session.adopt (s : Session) (thread : Nat) (p : Preparation) (settle : Transaction → Transaction) : Session :=
  { s.setTx thread (some (settle p.tx)) with
    heap := { s.heap with shared := p.shared, tokens := p.tokens }
    journal := s.journal ++ p.notices }

def Transaction.failed (tx : Transaction) : Transaction := { tx with phase := .failed }

namespace Action

open Step

def runPreparation (thread : Nat) (tx : Transaction) : Action Report := fun s =>
  match Prepare.run s.heap.layout thread (.ofHeap s.heap tx) with
  | .ok report p =>
    .ok report
      ((s.adopt thread p fun tx => { tx with phase := .prepared, report }).note
        (.prepared thread report.roots report.promoted))
  | .error (.refused cause) p =>
    .error (.refused cause) ((s.adopt thread p .failed).note (.prepareFailed thread cause))
  | .error f p => .error f (s.adopt thread p id)

def prepare (thread : Nat) : Action Report := do
  let tx ← openTx thread "prepare_commit"
  ofAttempt (tx.requirePhase "prepare_commit" .active)
  runPreparation thread tx

/-- The shared heap with the payload of one root overwritten by that of its working copy. -/
def overwrite (layout : Layout) (tx : Transaction) (shared : Arena) (root copy : Nat) : Attempt Arena := do
  let size ← layout.objectSize (← tx.nursery.header copy).typeId
  let payload ← Attempt.arith (Word.sub size headerSize)
  let target ← payloadAddress root 0
  shared.checkAccess target payload
  shared.write target (← tx.nursery.read (← payloadAddress copy 0) payload)

/-- Overwrites roots one after the other, and stops at the first that cannot be written. -/
def overwriteAll (layout : Layout) (tx : Transaction) (roots : List (Nat × Nat)) : Step Arena Unit :=
  roots.forM fun (root, copy) shared =>
    match overwrite layout tx shared root copy with
    | .ok shared => .ok () shared
    | .error f => .error f shared

def runOverwrite (thread : Nat) (tx : Transaction) : Action Unit := fun s =>
  match overwriteAll s.heap.layout tx tx.objects.pairs s.heap.shared with
  | .ok _ shared => .ok () ((s.setShared shared).setTx thread (some { tx with phase := .applied }))
  | .error (.refused cause) shared =>
    .error (.refused cause) (((s.setShared shared).setTx thread (some tx.failed)).note (.applyFailed cause))
  | .error f shared => .error f (s.setShared shared)

def apply (thread : Nat) : Action Unit := do
  let tx ← openTx thread "apply_roots"
  ofAttempt (tx.requirePhase "apply_roots" .prepared)
  runOverwrite thread tx

/-- The duration in events and notices is left at zero for whoever has a clock. -/
def finish (thread : Nat) : Action Report := do
  let tx ← openTx thread "end_transaction"
  ofAttempt (tx.requirePhase "end_transaction" .applied)
  let r := tx.report
  setTx thread none
  count (·.recordCommit r.promoted r.bytesPromoted r.weakRedirected r.weakCleared)
  emit (.committed thread r.roots r.promoted r.bytesPromoted r.weakRedirected r.weakCleared 0)
  emit (.nurseryReset thread tx.nursery.used)
  note (.committed thread 0 tx.nursery.used)
  return r

def commit (thread : Nat) : Action Report := do
  let _ ← openTx thread "commit"
  let _ ← prepare thread
  apply thread
  finish thread

end Action

end TxHeap
