/-
  TxHeap.TwinBuffer — room for twins, taken from the shared heap a chunk at a time.

  A request that fits the rest of the current chunk moves the cursor. One that does not
  takes a new chunk of at least a page and gives up what was left of the old one.
  `reserved` counts the bytes taken, abandoned tails included.
-/
import TxHeap.Arena

namespace TxHeap

structure TwinBuffer where
  pageSize : Nat
  cursor : Nat
  limit : Nat
  reserved : Nat
  deriving DecidableEq, Repr

namespace TwinBuffer

/-- A buffer without a chunk; a page has at least one byte. -/
def new (pageSize : Nat) : TwinBuffer := ⟨max pageSize 1, 0, 0, 0⟩

def free (b : TwinBuffer) : Nat := b.limit - b.cursor

def refill (b : TwinBuffer) (shared : Arena) (size : Nat) : Attempt (TwinBuffer × Arena) := do
  let chunk := max size b.pageSize
  let (start, shared) ← shared.allocate chunk
  return ({ b with cursor := start, limit := start + chunk, reserved := b.reserved + chunk }, shared)

/-- Takes a new chunk if the current one is too short. -/
def makeRoom (b : TwinBuffer) (shared : Arena) (size : Nat) : Attempt (TwinBuffer × Arena) :=
  if b.free < size then b.refill shared size else .ok (b, shared)

def allocate (b : TwinBuffer) (shared : Arena) (size : Nat) :
    Attempt (Nat × TwinBuffer × Arena) := do
  let (b, shared) ← b.makeRoom shared size
  Attempt.demand (b.cursor ≠ 0) (.invalidAccess 0 size)
  return (b.cursor, { b with cursor := b.cursor + size }, shared)

def describe (b : TwinBuffer) : String :=
  Text.record "PromotionBuffer"
    [("page_size", toString b.pageSize), ("cursor", toString b.cursor), ("limit", toString b.limit),
     ("reserved", toString b.reserved)]

end TwinBuffer

end TxHeap
