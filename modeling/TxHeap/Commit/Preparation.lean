/-
  TxHeap.Commit.Preparation — publishing what the roots of a transaction reach.

  A preparation takes items from a worklist: first the working copies of the roots, then
  every twin as it is made. It replaces each strong pointer of an item by its image
  (`strongImage`): null and shared addresses are their own images, a working copy's is its
  root, and a fresh object's is its twin, which is made on the first meeting (`makeTwin`) and
  left as a forwarding address on the object, so that cycles and shared parts are copied
  once. When the worklist is empty, it is known which fresh objects survive; then the weak
  field of every item that has one is redirected or cleared.

  The worklist is finite because every twin takes room: `budget` counts the bytes left for
  twins and the items waiting, and each item taken lowers it (`visit_budget`).

  A preparation that fails keeps what it has done, with the failure.
-/
import TxHeap.Heap
import TxHeap.Notice
import TxHeap.Step
import TxHeap.TwinBuffer
import TxHeap.Transaction

namespace TxHeap

/-- An object whose pointers are to be replaced by their images. -/
inductive Item where
  /-- The working copy of a root. -/
  | root (copy : Nat)
  | twin (obj : Nat)
  deriving DecidableEq, Repr

/-- What a word in a pointer field points at. -/
inductive Target where
  | null
  /-- The working copy of a root. -/
  | root (shared : Nat)
  /-- Some other address of the own nursery. -/
  | fresh
  | shared
  | foreign
  deriving DecidableEq, Repr

structure Preparation where
  shared : Arena
  /-- Tokens of shared objects. -/
  tokens : TokenTable
  tx : Transaction
  buffer : TwinBuffer
  /-- Items waiting, the next one first. -/
  pending : List Item
  /-- Items with a weak field, in the order they were taken. -/
  weakHolders : List Item
  report : Report
  notices : Array Notice

abbrev Prepare := Step Preparation

namespace Preparation

/-- The last root waits in front. -/
def ofHeap (heap : Heap) (tx : Transaction) : Preparation where
  shared := heap.shared
  tokens := heap.tokens
  tx
  buffer := .new heap.config.pageSize
  pending := (tx.objects.pairs.map fun pair => .root pair.2).reverse
  weakHolders := []
  report := { roots := tx.objects.size }
  notices := #[]

def target (p : Preparation) (value : Nat) : Target :=
  if value = 0 then .null
  else
    match p.tx.objects.sharedOf? value with
    | some shared => .root shared
    | none =>
      if p.tx.nursery.contains value then .fresh
      else if p.shared.contains value then .shared
      else .foreign

/-- Bytes that can still be given to twins. -/
def room (p : Preparation) : Nat := p.shared.remaining + p.buffer.free

def budget (p : Preparation) : Nat := p.room + p.pending.length

end Preparation

namespace Prepare

open Step

def note (n : Notice) : Prepare Unit := modify fun p => { p with notices := p.notices.push n }

def setNursery (nursery : Arena) : Prepare Unit := modify fun p => { p with tx := { p.tx with nursery } }

def setShared (shared : Arena) : Prepare Unit := modify fun p => { p with shared }

def headerOf (item : Item) : Prepare Header := do
  match item with
  | .root obj => ofAttempt ((← get).tx.nursery.header obj)
  | .twin obj => ofAttempt ((← get).shared.header obj)

def readField (item : Item) (offset : Nat) : Prepare Nat := do
  match item with
  | .root obj => ofAttempt ((← get).tx.nursery.readWord (← ofAttempt (payloadAddress obj offset)))
  | .twin obj => ofAttempt ((← get).shared.readWord (← ofAttempt (payloadAddress obj offset)))

def writeField (item : Item) (offset value : Nat) : Prepare Unit := do
  match item with
  | .root obj => setNursery (← ofAttempt ((← get).tx.nursery.writeWord (← ofAttempt (payloadAddress obj offset)) value))
  | .twin obj => setShared (← ofAttempt ((← get).shared.writeWord (← ofAttempt (payloadAddress obj offset)) value))

def takeRoom (size : Nat) : Prepare Nat := do
  let p ← get
  let (twin, buffer, shared) ← ofAttempt (p.buffer.allocate p.shared size)
  let taken := buffer.reserved - p.buffer.reserved
  set { p with
    buffer, shared
    notices := if taken = 0 then p.notices else p.notices.push (.chunkTaken taken twin) }
  return twin

/-- The twin takes over the token of the object it was made from. -/
def moveToken (obj twin : Nat) : Prepare Unit := modify fun p =>
  match p.tx.tokens.get? obj with
  | some token =>
    { p with tokens := p.tokens.insert twin token, tx := { p.tx with tokens := p.tx.tokens.erase obj } }
  | none => p

def makeTwin (thread obj : Nat) (header : Header) (layout : Layout) : Prepare Nat := do
  let size ← ofAttempt (layout.objectSize header.typeId)
  let twin ← takeRoom size
  let p ← get
  let bytes ← ofAttempt (p.tx.nursery.read obj size)
  let shared ← ofAttempt (p.shared.write twin bytes)
  setShared (← ofAttempt (shared.setHeader twin (.new header.typeId Flag.global)))
  let forwarded ← ofAttempt (Attempt.ofOption (.violation (.promotedTwice obj)) (header.forward? twin))
  setNursery (← ofAttempt (p.tx.nursery.setHeader obj forwarded))
  moveToken obj twin
  modify fun p =>
    { p with
      report := { p.report with promoted := p.report.promoted + 1, bytesPromoted := p.report.bytesPromoted + size }
      pending := .twin twin :: p.pending }
  note (.promoted thread obj twin size)
  return twin

def strongImage (layout : Layout) (thread value : Nat) : Prepare Nat := do
  match (← get).target value with
  | .null => return 0
  | .root shared => return shared
  | .shared => return value
  | .foreign => refuse (.foreignAddress value thread)
  | .fresh =>
    let header ← ofAttempt ((← get).tx.nursery.header value)
    match header.version with
    | .forwarded twin => return twin
    | .copyOf shared => refuse (.missingCopy shared value)
    | .empty => makeTwin thread value header layout

def redirectWeak (image : Nat) : Prepare Nat := do
  modify fun p => { p with report := { p.report with weakRedirected := p.report.weakRedirected + 1 } }
  return image

def clearWeak (thread value : Nat) : Prepare Nat := do
  modify fun p => { p with report := { p.report with weakCleared := p.report.weakCleared + 1 } }
  note (.weakCleared thread value)
  return 0

/-- The image of a weak pointer, once it is known which fresh objects have twins. -/
def weakImage (thread value : Nat) : Prepare Nat := do
  match (← get).target value with
  | .null => return 0
  | .root shared => redirectWeak shared
  | .shared => return value
  | .foreign => refuse (.foreignAddress value thread)
  | .fresh =>
    let header ← ofAttempt ((← get).tx.nursery.header value)
    match header.version with
    | .forwarded twin => redirectWeak twin
    | .copyOf shared => refuse (.missingCopy shared value)
    | .empty => clearWeak thread value

def replaceField (item : Item) (image : Nat → Prepare Nat) (offset : Nat) : Prepare Unit := do
  let value ← readField item offset
  let new ← image value
  if new = value then pure () else writeField item offset new

/-- Replaces the strong pointers of an item by their images. -/
def visit (layout : Layout) (thread : Nat) (item : Item) : Prepare Unit := do
  let typeId := (← headerOf item).typeId
  modify fun p =>
    if (layout.weak? typeId).isSome then { p with weakHolders := p.weakHolders ++ [item] } else p
  (layout.pointers typeId).forM (replaceField item (strongImage layout thread))

def settleWeak (layout : Layout) (thread : Nat) (item : Item) : Prepare Unit := do
  match layout.weak? (← headerOf item).typeId with
  | some offset => replaceField item (weakImage thread) offset
  | none => pure ()

end Prepare

end TxHeap
