/-
  TxHeap.Heap — everything that outlives a transaction.

  A heap owns the shared arena, the tokens recorded for shared objects, the table of
  attached threads, the counters and its event log. What it knows of its objects' types
  comes from a layout.
-/
import TxHeap.Arena
import TxHeap.Counters
import TxHeap.EventLog
import TxHeap.Token
import TxHeap.Layout
import TxHeap.Threads

namespace TxHeap

structure Heap where
  config : Config
  layout : Layout
  shared : Arena
  /-- Tokens fabricated for objects before they were promoted, by shared address. -/
  tokens : TokenTable
  threads : Threads
  /-- The next token to fabricate. -/
  nextToken : Nat
  counters : Counters
  events : EventLog

namespace Heap

/-- The heap's own log keeps every event and prints nothing; it is enabled where the configuration says so. -/
def newEventLog (verbose : Bool) : EventLog :=
  (EventLog.new { level := .debug, console := false }).setEnabled verbose

def new (config : Config) (layout : Layout) : Except SetupError Heap := do
  config.check.mapError .badConfig
  let shared ← Arena.new sharedStart config.sharedReserve config.chunkSize
  return {
    config, layout, shared
    tokens := .empty
    threads := .none
    nextToken := tokenStart
    counters := .new config.statsEnabled
    events := newEventLog config.verbose }

def spaceOf (heap : Heap) (addr : Nat) : Space :=
  .of addr heap.config.sharedReserve heap.config.nurseryReserve

def newNursery (heap : Heap) (thread : Nat) : Attempt Arena :=
  match windowStart? thread heap.config.nurseryReserve with
  | none => Attempt.violate (.noWindow thread)
  | some start =>
    match Arena.new start heap.config.nurseryReserve heap.config.chunkSize with
    | .ok nursery => .ok nursery
    | .error e => Attempt.refuse (.setup e)

def objectSize (heap : Heap) (obj : Nat) : Attempt Nat := do
  heap.layout.objectSize (← heap.shared.header obj).typeId

/-- A shared object is named by the token recorded for it, or else by its address. -/
def tokenOf (heap : Heap) (obj : Nat) : Nat := (heap.tokens.get? obj).getD obj

/-- A token never given out before; asking moves on to the next one even when the space is exhausted. -/
def issueToken (heap : Heap) : Attempt Nat × Heap :=
  let moved := { heap with nextToken := (heap.nextToken + wordSize) % wordLimit }
  if nurseryStart ≤ heap.nextToken then (Attempt.refuse (.outOfSpace wordSize 0), moved)
  else (.ok heap.nextToken, { moved with counters := heap.counters.recordToken })

def diagnostics (heap : Heap) : List (String × String) :=
  [("shared_used", toString heap.shared.used),
   ("shared_committed", toString heap.shared.committed),
   ("shared_identities", toString heap.tokens.size),
   ("main_attached", toString heap.threads.mainAttached),
   ("live_workers", toString heap.threads.liveWorkers),
   ("transactions_committed", toString heap.counters.committed),
   ("promotions", toString heap.counters.promoted)]

def describe (heap : Heap) : String :=
  Text.record "StmHeap" [("config", heap.config.describe), ("shared_used", toString heap.shared.used)]

end Heap

end TxHeap
