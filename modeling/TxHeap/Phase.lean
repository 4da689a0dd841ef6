/-
  TxHeap.Phase — where a transaction stands on its way to the shared heap.
-/

namespace TxHeap

inductive Phase where
  /-- Running; the barriers may be used. -/
  | active
  /-- Pointers replaced and fresh objects promoted; the roots are not yet written. -/
  | prepared
  /-- The roots are written; only the end of the transaction is left. -/
  | applied
  /-- A commit step failed partway. -/
  | failed
  deriving DecidableEq, Repr

def Phase.describe : Phase → String
  | .active => "Active"
  | .prepared => "Prepared"
  | .applied => "Applied"
  | .failed => "Failed"

end TxHeap
