/-
  TxHeap.Call.Access — headers, fields and stores.

  A thread sees the shared heap and the nursery of its own transaction, nothing else. A
  read of a shared object that the transaction has copied goes to the copy. A worker
  stores only into its nursery and only while its transaction is active; the main thread
  stores into shared objects directly.

  A field is a word at a payload offset; it must end inside the payload of the type that
  the object's header names.
-/
import TxHeap.Session

namespace TxHeap

/-- Whose memory an object lies in, as its reader sees it. -/
inductive Location where
  | nursery
  | shared
  deriving DecidableEq, Repr

def Layout.fieldAddress (layout : Layout) (obj typeId offset : Nat) : Attempt Nat := do
  match layout.payload? typeId with
  | none => Attempt.refuse (.unknownType typeId)
  | some payload =>
    let inner ← Attempt.arith (Word.add headerSize offset)
    if offset + wordSize ≤ payload ∧ obj + inner < wordLimit then return obj + inner
    else Attempt.refuse (.invalidAccess (Word.addSaturating obj inner) wordSize)

namespace Handle

def sees (h : Handle) (obj : Nat) : Bool := h.tx.any (·.nursery.contains obj)

def locate (h : Handle) (heap : Heap) (obj : Nat) : Attempt Location :=
  if h.sees obj then .ok .nursery
  else if heap.spaceOf obj = .shared then .ok .shared
  else Attempt.refuse (.foreignAddress obj h.thread)

def nursery (h : Handle) (operation : String) : Attempt Arena :=
  match h.tx with
  | some tx => .ok tx.nursery
  | none => Attempt.refuse (.noTransaction operation)

def copyOf? (h : Handle) (shared : Nat) : Option Nat := h.tx.bind (·.objects.copyOf? shared)

/-- Shared objects and working copies of the open transaction, in the order they were made. -/
def roots (h : Handle) : List (Nat × Nat) := (h.tx.map (·.objects.pairs)).getD []

def header (h : Handle) (heap : Heap) (obj : Nat) : Attempt Header := do
  match ← h.locate heap obj with
  | .nursery => (← h.nursery "header").header obj
  | .shared => heap.shared.header obj

def field (heap : Heap) (arena : Arena) (obj offset : Nat) : Attempt Nat := do
  heap.layout.fieldAddress obj (← arena.header obj).typeId offset

def readWord (h : Handle) (heap : Heap) (obj offset : Nat) : Attempt Nat := do
  match ← h.locate heap obj with
  | .nursery =>
    let nursery ← h.nursery "read_word"
    nursery.readWord (← field heap nursery obj offset)
  | .shared =>
    let header ← heap.shared.header obj
    match if header.isCopied then h.copyOf? obj else none with
    | some copy =>
      let nursery ← h.nursery "read_word"
      nursery.readWord (← heap.layout.fieldAddress copy header.typeId offset)
    | none => heap.shared.readWord (← heap.layout.fieldAddress obj header.typeId offset)

/-- A working copy stands for its shared object and a promoted object for its twin; any other visible object is itself. -/
def canonical (h : Handle) (heap : Heap) (obj : Nat) : Attempt Nat := do
  match ← h.locate heap obj with
  | .shared => return obj
  | .nursery =>
    let header ← (← h.nursery "normalize_global").header obj
    return header.version.address?.getD obj

end Handle

namespace Action

open Step

def query {α : Type} (thread : Nat) (ask : Handle → Heap → Attempt α) : Action α := do
  let h ← handle thread
  ofAttempt (ask h (← get).heap)

def header (thread obj : Nat) : Action Header := query thread fun h heap => h.header heap obj

def readWord (thread obj offset : Nat) : Action Nat := query thread fun h heap => h.readWord heap obj offset

/-- Null stands for itself. -/
def canonical (thread : Nat) (obj : Option Nat) : Action (Option Nat) :=
  query thread fun h heap => obj.mapM (h.canonical heap)

def writeShared (obj offset value : Nat) : Action Unit := do
  let heap := (← get).heap
  let addr ← ofAttempt (Handle.field heap heap.shared obj offset)
  setShared (← ofAttempt (heap.shared.writeWord addr value))

def writePrivate (thread obj offset value : Nat) : Action Unit := do
  let tx ← openTx thread "write_word"
  let addr ← ofAttempt (Handle.field (← get).heap tx.nursery obj offset)
  ofAttempt (tx.requirePhase "write_word" .active)
  let nursery ← ofAttempt (tx.nursery.writeWord addr value)
  setTx thread (some { tx with nursery })

def writeWord (thread obj offset value : Nat) : Action Unit := do
  match ← query thread fun h heap => h.locate heap obj with
  | .nursery => writePrivate thread obj offset value
  | .shared =>
    if thread = mainThread then writeShared obj offset value
    else
      note (.missingBarrier thread obj)
      violate (.missingBarrier obj)

end Action

end TxHeap
