/-
  TxHeap.Session — a heap with everybody who is attached to it.

  Calls are made one at a time, each by an attached thread. A call is an `Action`: it ends
  with an answer or a failure, and in both cases with the session as it is then; a failed
  call is not rolled back.

  Besides the heap and the handles the session has what is shared by all heaps of a process:
  an event log, the lines printed by it, and the journal.
-/
import TxHeap.Heap
import TxHeap.Notice
import TxHeap.Step
import TxHeap.Transaction

namespace TxHeap

structure Handle where
  thread : Nat
  tx : Option Transaction

namespace Handle

def phase? (h : Handle) : Option Phase := h.tx.map (·.phase)

def nurseryUsed (h : Handle) : Nat := (h.tx.map (·.nursery.used)).getD 0

def describe (h : Handle) : String :=
  let phase := match h.phase? with
    | some phase => Text.tagged "Some" [phase.describe]
    | none => "None"
  Text.record "Mutator"
    [("thread", Text.tagged "ThreadNum" [toString h.thread]), ("phase", phase),
     ("nursery_used", toString h.nurseryUsed)]

end Handle

structure Session where
  heap : Heap
  /-- In the order of attaching. -/
  handles : List Handle
  log : EventLog
  printed : Array ConsoleLine
  journal : Array Notice

namespace Session

/-- A new heap to which nobody is attached, under a process-wide event log. -/
def create (config : Config) (layout : Layout) (log : EventLog) : Except SetupError Session := do
  let heap ← Heap.new config layout
  return { heap, handles := [], log, printed := #[],
           journal := #[.heapCreated config.sharedReserve config.nurseryReserve config.pageSize] }

def handle? (s : Session) (thread : Nat) : Option Handle := s.handles.find? (·.thread == thread)

def tx? (s : Session) (thread : Nat) : Option Transaction := (s.handle? thread).bind (·.tx)

def setTx (s : Session) (thread : Nat) (tx : Option Transaction) : Session :=
  { s with handles := s.handles.map fun h => if h.thread = thread then { h with tx } else h }

def setShared (s : Session) (shared : Arena) : Session := { s with heap := { s.heap with shared } }

def note (s : Session) (n : Notice) : Session := { s with journal := s.journal.push n }

/-- Offers an event to the heap's log and then to the process-wide one, if the heap's is enabled. -/
def emit (s : Session) (e : Event) : Session :=
  if s.heap.events.enabled then
    { s with
      heap := { s.heap with events := s.heap.events.offer e }
      log := s.log.offer e
      printed := s.printed ++ (s.heap.events.line? e).toList ++ (s.log.line? e).toList }
  else s

def count (s : Session) (record : Counters → Counters) : Session :=
  { s with heap := { s.heap with counters := record s.heap.counters } }

end Session

abbrev Action := Step Session

namespace Action

open Step

def note (n : Notice) : Action Unit := modify (·.note n)

def emit (e : Event) : Action Unit := modify (·.emit e)

def count (record : Counters → Counters) : Action Unit := modify (·.count record)

def setTx (thread : Nat) (tx : Option Transaction) : Action Unit := modify (·.setTx thread tx)

def setShared (shared : Arena) : Action Unit := modify (·.setShared shared)

def handle (thread : Nat) : Action Handle := do
  match (← get).handle? thread with
  | some h => return h
  | none => throw (.detached thread)

def openTx (thread : Nat) (operation : String) : Action Transaction := do
  match (← handle thread).tx with
  | some tx => return tx
  | none => refuse (.noTransaction operation)

/-- The form of a call that accepts no refusal: one is noted and is fatal. -/
def orFatal {α : Type} (call : Action α) : Action α := fun s =>
  match call s with
  | .ok a s => .ok a s
  | .error f s => .error f.escalate.1 (f.escalate.2.foldl .note s)

end Action

end TxHeap
