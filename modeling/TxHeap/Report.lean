/-
  TxHeap.Report — what a commit did.
-/

namespace TxHeap

structure Report where
  /-- Shared objects written. -/
  roots : Nat := 0
  /-- Fresh objects copied into the shared heap. -/
  promoted : Nat := 0
  bytesPromoted : Nat := 0
  /-- Growth of the shared heap, abandoned chunk tails included. -/
  sharedConsumed : Nat := 0
  weakRedirected : Nat := 0
  weakCleared : Nat := 0
  deriving DecidableEq, Repr

end TxHeap
